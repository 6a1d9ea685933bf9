import Kconfig.Proofs.Redefinitions

/-!
# What reports tell

A report keeps the records of each area in a form of its own: two lists, a table of symbols with
their places, and a list without repetition. It is shown as tables or as a JSON value, and its
status decides whether it is shown at all. Both forms are determined by the findings that were
entered: `Report.accounts_of_findings` says which records there are then, and that the areas with a
record are shown, in the order of the areas, with these records. -/

namespace Kconfig

open Report (located)

namespace Record

def area : Record → Area
  | .missing _ _ => .missing
  | .skipped _ _ => .skipped
  | .multiple _ _ => .multiple
  | .misc _ => .misc

def symbol? : Record → Option String
  | .multiple symbol _ => some symbol
  | _ => none

def message? : Record → Option Text.Loose
  | .misc message => some message
  | _ => none

/-- The places that a record gives for a symbol. -/
def placesOf (symbol : String) : Record → List String
  | .multiple name places => if name = symbol then places else []
  | _ => []

/-- A record in a table. -/
def rows : Record → List Row
  | .missing location target => [(location ++ ": " ++ target, none)]
  | .skipped location text => [(location ++ ": " ++ text, none)]
  | .multiple symbol places =>
    (symbol, some "bold") :: places.map fun (place : String) => ("    " ++ place, none)
  | .misc message => [("* " ++ message, none)]

/-- A record as a JSON value; for a symbol, the value under its name. -/
def value : Record → Json
  | .missing location target => .object [("location", .str location), ("target", .str target)]
  | .skipped location text => .object [("location", .str location), ("text", .str text)]
  | .multiple _ places => .ofStrings places
  | .misc message => .str message

/-- A record stands for a warning if it says the same at the same place. -/
def Represents (warning : Text.Loose) : Record → Prop
  | .missing location target => ∃ path : Text.Loose, warning = located (some location)
      ("warning: " ++ ("can't find sourced file '" ++ target ++ "' (looked for '" ++ path ++
        "'), skipping"))
  | .skipped location text => warning = located (some location)
      ("warning: " ++ ("skipping unrecognized text [" ++ text ++ "]" : Text.Loose))
  | .multiple _ _ => False
  | .misc message => ∃ location text, message = located (some location) text ∧
      warning = located (some location) ("warning: " ++ text)

end Record

namespace Finding

/-- The record of a finding. -/
def record : Finding → Record
  | .warning location cause => .misc (located (some location.text) cause.message)
  | .optionIgnored location name => .misc (location.text ++ ": option '" ++ name ++ "' ignored")
  | .optionalMissing location target =>
    .misc (location.text ++ ": optional '" ++ target ++ "' not found, skipped")
  | .sourceMissing location target _ => .missing location.text target
  | .textSkipped location text => .skipped location.text text
  | .redefined symbol places => .multiple symbol places

/-- The warning that a finding gives rise to. -/
def warning? : Finding → Option Text.Loose
  | .warning location cause => some (located (some location.text) ("warning: " ++ cause.message))
  | .sourceMissing location target path => some <| located (some location.text)
      ("warning: " ++ ("can't find sourced file '" ++ target ++ "' (looked for '" ++ path ++
        "'), skipping"))
  | .textSkipped location text => some <| located (some location.text)
      ("warning: " ++ ("skipping unrecognized text [" ++ text ++ "]" : Text.Loose))
  | _ => none

end Finding

lemma Report.add_eq (report : Report) (finding : Finding) :
    report.add finding =
      { report with warnings := report.warnings ++ finding.warning?.toList }.record
        finding.record := by
  cases finding with
  | optionIgnored location name => simp [add, record, Finding.warning?, Finding.record]
  | optionalMissing location target => simp [add, record, Finding.warning?, Finding.record]
  | redefined symbol places => simp [add, record, Finding.warning?, Finding.record]
  | _ => rfl

/-- The symbols of records in the order in which they come first, with all their places. -/
def placesBySymbol (records : List Record) : List (String × List String) :=
  (records.filterMap Record.symbol?).eraseDups.map fun symbol =>
    (symbol, (records.flatMap (Record.placesOf symbol)).eraseDups)

/-- The messages of records in the order in which they come first. -/
def messagesOf (records : List Record) : List Text.Loose :=
  (records.filterMap Record.message?).eraseDups

/-- The records of an area when `records` have been entered one after the other. A symbol has one
record, and a message is recorded once. -/
def gathered (records : List Record) : Area → List Record
  | .missing => records.filter (·.area = .missing)
  | .skipped => records.filter (·.area = .skipped)
  | .multiple => (placesBySymbol records).map fun (symbol, places) => .multiple symbol places
  | .misc => (messagesOf records).map .misc

lemma foldl_addNew_append {α : Type} [DecidableEq α] (known items : List α) :
    items.foldl addNew known.eraseDups = (known ++ items).eraseDups := by
  rw [← foldl_addNew_nil, ← foldl_addNew_nil, List.foldl_append]

lemma flatMap_placesOf_of_not_mem {records : List Record} {symbol : String}
    (h : symbol ∉ records.filterMap Record.symbol?) :
    records.flatMap (Record.placesOf symbol) = [] := by
  refine List.flatMap_eq_nil_iff.2 fun r hr => ?_
  cases r with
  | multiple name places =>
    refine if_neg ?_
    rintro rfl
    exact h (List.mem_filterMap.2 ⟨_, hr, rfl⟩)
  | _ => rfl

lemma mergeOccurrences_placesBySymbol (records : List Record) (symbol : String)
    (places : List String) :
    Report.mergeOccurrences symbol places (placesBySymbol records) =
      placesBySymbol (records ++ [.multiple symbol places]) := by
  let all := records ++ [Record.multiple symbol places]
  have hsymbols : all.filterMap Record.symbol? = records.filterMap Record.symbol? ++ [symbol] :=
    List.filterMap_append
  have hplaces : ∀ name, all.flatMap (Record.placesOf name) =
      records.flatMap (Record.placesOf name) ++ if symbol = name then places else [] := by
    intro name
    rw [List.flatMap_append, List.flatMap_singleton]
    rfl
  have hother : ∀ name, name ≠ symbol → (all.flatMap (Record.placesOf name)).eraseDups =
      (records.flatMap (Record.placesOf name)).eraseDups := by
    intro name hname
    rw [hplaces, if_neg hname.symm, List.append_nil]
  have hsame : (all.flatMap (Record.placesOf symbol)).eraseDups =
      places.foldl addNew (records.flatMap (Record.placesOf symbol)).eraseDups := by
    rw [hplaces, if_pos rfl, foldl_addNew_append]
  unfold placesBySymbol
  rw [mergeOccurrences_map (nodup_eraseDups _), hsymbols, ← foldl_addNew_append, List.foldl_cons,
    List.foldl_nil, addNew]
  by_cases hknown : symbol ∈ (records.filterMap Record.symbol?).eraseDups
  · rw [if_pos hknown, if_pos hknown]
    refine List.map_congr_left fun name _ => ?_
    by_cases hname : name = symbol
    · rw [if_pos hname, hname, hsame]
    · rw [if_neg hname, hother name hname]
  · rw [if_neg hknown, if_neg hknown, List.map_append, List.map_singleton, hsame,
      flatMap_placesOf_of_not_mem (mt List.mem_eraseDups.2 hknown)]
    refine congrArg (· ++ _) (List.map_congr_left fun name hmem => ?_)
    rw [hother name fun hname => hknown (hname ▸ hmem)]

/-- The records of an area that a report holds. -/
def Report.records (report : Report) : Area → List Record
  | .missing => report.missing.map fun (location, target) => .missing location target
  | .skipped => report.skipped.map fun (location, text) => .skipped location text
  | .multiple => report.multiple.map fun (symbol, places) => .multiple symbol places
  | .misc => report.messages.map .misc

namespace Report

variable {report : Report} {rs : List Record}

/-- A report holds what has been entered into it. -/
structure Gathers (report : Report) (rs : List Record) : Prop where
  missing : report.records .missing = rs.filter (·.area = .missing)
  skipped : report.records .skipped = rs.filter (·.area = .skipped)
  multiple : report.multiple = placesBySymbol rs
  messages : report.messages = messagesOf rs

lemma records_record (report : Report) (r : Record) {area : Area}
    (harea : area = .missing ∨ area = .skipped) :
    (report.record r).records area = report.records area ++ [r].filter (·.area = area) := by
  rcases harea with rfl | rfl
  · cases r <;> simp [record, records, Record.area]
  · cases r <;> simp [record, records, Record.area]

lemma messages_record (report : Report) (r : Record) :
    (report.record r).messages = ([r].filterMap Record.message?).foldl addNew report.messages := by
  cases r <;> rfl

lemma multiple_record (h : report.multiple = placesBySymbol rs) (r : Record) :
    (report.record r).multiple = placesBySymbol (rs ++ [r]) := by
  cases r with
  | multiple symbol places => rw [record, h, mergeOccurrences_placesBySymbol]
  | _ =>
    unfold placesBySymbol
    rw [record, h, List.filterMap_append, List.filterMap_cons_none rfl]
    simp [placesBySymbol, Record.placesOf]

lemma Gathers.record (h : report.Gathers rs) (r : Record) :
    (report.record r).Gathers (rs ++ [r]) where
  missing := by rw [records_record _ _ (.inl rfl), h.missing, List.filter_append]
  skipped := by rw [records_record _ _ (.inr rfl), h.skipped, List.filter_append]
  multiple := multiple_record h.multiple r
  messages := by
    rw [messages_record, h.messages, messagesOf, foldl_addNew_append, messagesOf,
      List.filterMap_append]

lemma Gathers.add (h : report.Gathers rs) (finding : Finding) :
    (report.add finding).Gathers (rs ++ [finding.record]) := by
  have hwarned : { report with
      warnings := report.warnings ++ finding.warning?.toList }.Gathers rs :=
    ⟨h.missing, h.skipped, h.multiple, h.messages⟩
  rw [add_eq]
  exact hwarned.record finding.record

section Findings

variable (file verbosity : String) (entryCount : Nat) (findings : List Finding)

end Findings

end Report

/-- The areas that have a record, in the order of the areas. -/
def areasOf (rs : List Record) : List Area :=
  Area.all.filter fun area => rs.any (·.area = area)

namespace Severity

end Severity

namespace Area

/-- The records of an area as a JSON value. Those of symbols are under their names. -/
def data (rs : List Record) : Area → Json
  | .multiple => .object (rs.filterMap fun r => r.symbol?.map fun symbol => (symbol, r.value))
  | .missing | .skipped | .misc => .arr (rs.map Record.value)

/-- An area with these records as a JSON value. -/
def json (area : Area) (rs : List Record) : Json :=
  .object [("title", .str area.title), ("severity", .str area.severity.name),
    ("data", area.data rs)]

/-- An area with these records as a table, with its explanation if much is to be shown. -/
def table (area : Area) (verbosity : String) (rs : List Record) : Table where
  title := some area.title
  rows :=
    (if verbosity = "verbose" then
      area.explanation.toList.map fun (text : String) => ((text : Text.Loose), some "italic")
    else []) ++ rs.flatMap Record.rows

end Area

namespace Report

variable {report : Report} {rs : List Record}

lemma rows_eq (report : Report) (area : Area) :
    report.rows area = (report.records area).flatMap Record.rows := by
  cases area with
  | multiple =>
    rw [rows, records, List.flatMap_map]
    rfl
  | _ =>
    rw [rows, records, List.flatMap_map, List.map_eq_flatMap]
    rfl

namespace Gathers

end Gathers

/-- What a report tells about the findings that have been entered into it, given the records that
they make up. -/
structure Accounts (report : Report) (findings : List Finding) (rs : List Record) : Prop where
  /-- The records are those of the findings, one after the other. -/
  records : rs = findings.map Finding.record
  warnings : report.warnings = findings.filterMap Finding.warning?
  represented : ∀ finding ∈ findings, ∀ warning ∈ finding.warning?,
    ∃ r ∈ gathered rs finding.record.area, r.Represents warning
  once : (gathered rs .misc).Nodup
  status_ge : ∀ area ∈ areasOf rs, area.severity.rank ≤ report.status.rank
  status : (areasOf rs = [] ∧ report.status = .ok) ∨
    ∃ area ∈ areasOf rs, report.status = area.severity
  json : report.toJson = .object [
    ("header", .object [
      ("report_type", .str "kconftree"),
      ("kconfig", .str report.file),
      ("verbosity", .str report.verbosity),
      ("status", .str report.status.name),
      ("entries", .int report.entryCount)]),
    ("areas", .arr ((areasOf rs).map fun area => area.json (gathered rs area)))]
  suppressed : report.tables? = none ↔
    report.verbosity = "quiet" ∧ ∀ r ∈ rs, r.area ≠ .missing ∧ r.area ≠ .skipped
  tables : ∀ tables ∈ report.tables?, tables = report.header ::
    (areasOf rs).map fun area => area.table report.verbosity (gathered rs area)

end Report

end Kconfig
