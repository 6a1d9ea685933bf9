import Kconfig.Proofs.LineNumbers
import Kconfig.TokenStream.Calls
import Mathlib.Data.List.DropRight

/-!
# Intervals of line numbers

Each line that is read from a file spans some of its physical lines, from the number where the line
starts to the number of the last physical line read. Whatever lines are read and put back, the
numbers agree with how much of the file has been read, and a text in place of the last line has the
span of that line. If nothing is put back, the spans follow each other without gap or overlap.

Where a file is no text, reading fails, and physical lines that should be joined with what follows
may be lost. They are counted, and from then on a text that is put back is that much further on than
the line in whose place it is.
-/

namespace Kconfig

namespace LineReader

/-- The number of physical lines of the line that has been put back. -/
def unreadHeight (r : LineReader) : Nat :=
  r.unread.elim 0 (·.height)

/-- The physical lines `read` have been read from the file, and what is left is the stretch `s` and
the later ones. -/
structure HasRead (bytes : List UInt8) (read : List (List Char)) (s : Stretch) (r : LineReader) :
    Prop where
  physical : Line.physical bytes = read ++ (s :: r.later).flatMap (·.physical)
  errors : r.errors <:+ Stretch.errors bytes
  rest : r.rest = s.lines
  damage : r.damage = s.damage
  linenr : r.linenr + r.unreadHeight = read.length

variable {bytes : List UInt8} {read : List (List Char)} {s : Stretch} {r : LineReader}
  {line : Line} {rest : List Line} {damage : Damage} {text : List Char}

lemma keeps_afterDamage (r : LineReader) : r.afterDamage.unread = r.unread ∧
    r.afterDamage.lastHeight = r.lastHeight ∧ r.linenr ≤ r.afterDamage.linenr := by
  unfold afterDamage
  cases r.damage with
  | none => exact ⟨rfl, rfl, Nat.le_refl _⟩
  | some damage => cases r.later <;> exact ⟨rfl, rfl, Nat.le_add_right _ _⟩

namespace HasRead

lemma linenr_of_unread (h : r.HasRead bytes read s) (hunread : r.unread = none) :
    r.linenr = read.length := by
  have hlinenr := h.linenr
  rw [unreadHeight, hunread] at hlinenr
  exact hlinenr

lemma readLine (h : r.HasRead bytes read s) (hunread : r.unread = none)
    (hrest : r.rest = line :: rest) : ∃ taken left, s.physical = taken ++ left ∧
      taken.length = line.height ∧
        { r.take line with rest }.HasRead bytes (read ++ taken) { s with physical := left } := by
  obtain ⟨taken, left, hphysical, htaken, hleft⟩ :=
    Line.ofPhysical_eq_cons (h.rest.symm.trans hrest)
  refine ⟨taken, left, hphysical, htaken, ?_⟩
  exact
    { physical := by
        rw [h.physical, List.flatMap_cons, List.flatMap_cons, hphysical, List.append_assoc,
          List.append_assoc]
        rfl
      errors := h.errors
      rest := hleft
      damage := by
        have htorn : Line.leftOver s.physical s.lines = Line.leftOver left rest := by
          rw [Line.leftOver, Line.leftOver, ← h.rest, hrest, hphysical, List.length_append, htaken]
          exact Nat.add_sub_add_left _ _ _
        refine h.damage.trans ?_
        rw [Stretch.damage, Stretch.damage, htorn, hleft]
        rfl
      linenr := by
        change r.linenr + line.height + r.unread.elim 0 _ = _
        rw [hunread, List.length_append, htaken, h.linenr_of_unread hunread]
        rfl }

lemma torn (h : r.HasRead bytes read s) (hrest : r.rest = []) (hdamage : r.damage = some damage) :
    damage.torn = s.physical.length := by
  have hlength := Line.totalHeight_add_torn s
  rw [← h.rest, hrest, ← h.damage, hdamage] at hlength
  exact (Nat.zero_add _).symm.trans hlength

lemma afterDamage (h : r.HasRead bytes read s) (hunread : r.unread = none) (hrest : r.rest = [])
    (hdamage : r.damage = some damage) :
    ∃ s', r.afterDamage.HasRead bytes (read ++ s.physical) s' := by
  have hlinenr : r.linenr + damage.torn + r.unreadHeight = (read ++ s.physical).length := by
    rw [h.torn hrest hdamage, List.length_append, h.linenr_of_unread hunread, unreadHeight, hunread]
    rfl
  have herrors := r.errors_afterDamage.trans h.errors
  have hphysical := h.physical
  rw [List.flatMap_cons, ← List.append_assoc] at hphysical
  cases hlater : r.later with
  | nil =>
    rw [hlater] at hphysical
    rw [afterDamage_of_last hdamage hlater] at herrors ⊢
    refine ⟨{ physical := [], error := s.error }, ?_⟩
    exact
      { physical := by rw [hphysical, hlater]; rfl
        errors := herrors
        rest := rfl
        damage := by
          obtain ⟨error, herror, rfl⟩ := Option.map_eq_some_iff.1 (h.damage.symm.trans hdamage)
          rw [Stretch.damage, herror]
          rfl
        linenr := hlinenr }
  | cons next later =>
    rw [hlater] at hphysical
    rw [afterDamage_of_later hdamage hlater] at herrors ⊢
    exact ⟨next,
      { physical := hphysical
        errors := herrors
        rest := rfl
        damage := rfl
        linenr := hlinenr }⟩

lemma damage_of_whole (h : r.HasRead bytes read s) (hwhole : Text.decodeUtf8 bytes = .whole text) :
    r.damage = none := by
  have herrors := h.errors
  rw [Stretch.errors, Stretch.ofBytes_of_whole hwhole] at herrors
  rcases List.suffix_cons_iff.1 herrors with heq | hnil
  · exact Option.map_eq_none_iff.1 (List.cons.inj heq).1
  · cases List.suffix_nil.1 hnil

end HasRead

end LineReader

inductive LineRequest where
  | next
  | nextRaw
  | putBack (text : List Char)
  deriving Repr, DecidableEq

namespace LineRequest

def isRead : LineRequest → Bool
  | .next => true
  | .nextRaw => true
  | .putBack _ => false

/-- The form in which a line is delivered. -/
def form : LineRequest → List Char → List Char
  | .nextRaw => Line.raw
  | _ => id

def call : LineRequest → Attempt LineReader (Option (List Char))
  | .next => LineReader.nextCall
  | .nextRaw => LineReader.nextRawCall
  | .putBack text => do
    LineReader.putBackCall text
    return none

end LineRequest

/-- The physical lines from `first` to `last`. -/
structure Span where
  first : Nat
  last : Nat
  deriving Repr, DecidableEq

/-- The numbers of the lines. -/
def Span.lines (span : Span) : List Nat :=
  List.range' span.first (span.last + 1 - span.first)

/-- The physical lines that a read has taken, to deliver a line or to fail. -/
structure Taking where
  span : Span
  delivered : Bool
  deriving Repr, DecidableEq

/-- A line reader together with what its reads have taken. -/
structure LineHistory where
  reader : LineReader
  takings : List Taking := []
  deriving Repr, DecidableEq

namespace LineHistory

def ofBytes (file : String) (bytes : List UInt8) : LineHistory where
  reader := LineReader.ofBytes file bytes

/-- The spans of the lines that have been delivered. -/
def spans (t : LineHistory) : List Span :=
  (t.takings.filter (·.delivered)).map (·.span)

/-- The number of physical lines that failing reads have taken since the last line was delivered. -/
def torn (t : LineHistory) : Nat :=
  (t.takings.rtakeWhile (!·.delivered)).flatMap (·.span.lines) |>.length

/-- The history after a line has been delivered. -/
def delivered (t : LineHistory) (reader : LineReader) : LineHistory where
  reader
  takings := t.takings ++ [⟨⟨reader.lineStart, reader.linenr⟩, true⟩]

/-- The history after a read has failed. -/
def failed (t : LineHistory) (reader : LineReader) : LineHistory where
  reader
  takings := t.takings ++ [⟨⟨t.reader.linenr + 1, reader.linenr⟩, false⟩]

/-- What a request gives, and the history after it. -/
def perform (t : LineHistory) (request : LineRequest) :
    Except Fault (Option (List Char)) × LineHistory :=
  match request.call.perform t.reader with
  | (.ok (some text), reader) => (.ok (some text), t.delivered reader)
  | (.ok none, reader) => (.ok none, { t with reader })
  | (.error (.undecodable error), reader) => (.error (.undecodable error), t.failed reader)
  | (.error fault, reader) => (.error fault, { t with reader })

def run (t : LineHistory) (requests : List LineRequest) : LineHistory :=
  requests.foldl (fun t request => (t.perform request).2) t

/-- The span of the line that has been delivered last; before the first one, an empty span in front
of all lines. -/
def lastSpan (t : LineHistory) : Span :=
  t.spans.getLast?.getD ⟨1, 0⟩

variable {t t' : LineHistory} {request : LineRequest} {reader : LineReader} {text : List Char}
  {line : Line} {rest : List Line} {damage : Damage} {bytes : List UInt8}
  {read : List (List Char)} {s : Stretch}

lemma lastSpan_delivered (t : LineHistory) (reader : LineReader) :
    (t.delivered reader).lastSpan = ⟨reader.lineStart, reader.linenr⟩ := by
  rw [lastSpan, spans, delivered, List.filter_append, List.map_append]
  change (_ ++ [_]).getLast?.getD _ = _
  rw [List.getLast?_concat, Option.getD_some]

lemma lastSpan_failed (t : LineHistory) (reader : LineReader) :
    (t.failed reader).lastSpan = t.lastSpan := by
  rw [lastSpan, lastSpan, spans, failed, List.filter_append, List.map_append]
  exact congrArg (fun spans => (List.getLast? spans).getD _) (List.append_nil _)

lemma torn_delivered (t : LineHistory) (reader : LineReader) : (t.delivered reader).torn = 0 := by
  rw [torn, delivered, List.rtakeWhile_concat_neg _ _ _ (by simp)]
  rfl

lemma torn_failed (t : LineHistory) (reader : LineReader) :
    (t.failed reader).torn = t.torn + (reader.linenr - t.reader.linenr) := by
  rw [torn, failed, List.rtakeWhile_concat_pos _ _ _ (by simp), List.flatMap_append,
    List.length_append, List.flatMap_singleton, Span.lines, List.length_range', torn,
    Nat.add_sub_add_right]

/-- The ways in which a request gives an answer and another history. -/
inductive Performs (t : LineHistory) :
    LineRequest → Except Fault (Option (List Char)) × LineHistory → Prop where
  | refused {text : List Char} (misuse : Misuse) (hunread : t.reader.unread ≠ none) :
    Performs t (.putBack text) (.error (.misuse misuse), t)
  | putBack {text : List Char} (hunread : t.reader.unread = none) :
    Performs t (.putBack text) (.ok none, { t with
      reader := { t.reader with
        linenr := t.reader.linenr - t.reader.lastHeight
        unread := some ⟨text, t.reader.lastHeight⟩ } })
  | reread {request : LineRequest} {line : Line} (hread : request.isRead = true)
    (hunread : t.reader.unread = some line) :
    Performs t request (.ok (some (request.form line.text)),
      t.delivered { t.reader.take line with unread := none })
  | read {request : LineRequest} {line : Line} {rest : List Line} (hread : request.isRead = true)
    (hunread : t.reader.unread = none) (hrest : t.reader.rest = line :: rest) :
    Performs t request (.ok (some (request.form line.text)),
      t.delivered { t.reader.take line with rest })
  | fileEnd {request : LineRequest} (hread : request.isRead = true)
    (hunread : t.reader.unread = none) (hrest : t.reader.rest = [])
    (hdamage : t.reader.damage = none) : Performs t request (.ok none, t)
  | failed {request : LineRequest} {damage : Damage} (hread : request.isRead = true)
    (hunread : t.reader.unread = none) (hrest : t.reader.rest = [])
    (hdamage : t.reader.damage = some damage) :
    Performs t request (.error (.undecodable damage.error), t.failed t.reader.afterDamage)

lemma perform_of_isRead (t : LineHistory) (hread : request.isRead = true) :
    t.perform request = match t.reader.next with
      | .error error => (.error (.undecodable error), t.failed t.reader.afterDamage)
      | .ok (none, reader) => (.ok none, { t with reader })
      | .ok (some text, reader) => (.ok (some (request.form text)), t.delivered reader) := by
  cases request with
  | next =>
    rw [perform, LineRequest.call, LineReader.perform_nextCall]
    cases t.reader.next with
    | error error => rfl
    | ok result => obtain ⟨_ | line, reader⟩ := result <;> rfl
  | nextRaw =>
    rw [perform, LineRequest.call, LineReader.perform_nextRawCall, LineReader.nextRaw]
    cases t.reader.next with
    | error error => rfl
    | ok result => obtain ⟨_ | line, reader⟩ := result <;> rfl
  | putBack text => cases hread

lemma performs_of_isRead (t : LineHistory) (hread : request.isRead = true) :
    t.Performs request (t.perform request) := by
  rw [perform_of_isRead t hread, LineReader.next]
  cases hunread : t.reader.unread with
  | some line => exact .reread hread hunread
  | none =>
    cases hrest : t.reader.rest with
    | cons line rest => exact .read hread hunread hrest
    | nil =>
      cases hdamage : t.reader.damage with
      | some damage => exact .failed hread hunread hrest hdamage
      | none => exact .fileEnd hread hunread hrest hdamage

lemma performs_putBack (t : LineHistory) (text : List Char) :
    t.Performs (.putBack text) (t.perform (.putBack text)) := by
  rw [perform, LineRequest.call, Attempt.perform_bind, LineReader.perform_putBackCall,
    LineReader.putBack]
  cases hunread : t.reader.unread with
  | some line =>
    have hne : t.reader.unread ≠ none := by
      rw [hunread]
      exact Option.some_ne_none line
    exact .refused _ hne
  | none => exact .putBack hunread

lemma performs_perform (t : LineHistory) (request : LineRequest) :
    t.Performs request (t.perform request) := by
  cases request with
  | next => exact t.performs_of_isRead rfl
  | nextRaw => exact t.performs_of_isRead rfl
  | putBack text => exact t.performs_putBack text

/-- The last span and what has been lost since then end where the reader is in the file. -/
structure Reaches (bytes : List UInt8) (read : List (List Char)) (s : Stretch) (t : LineHistory) :
    Prop where
  position : t.reader.HasRead bytes read s
  last : t.lastSpan.last + t.torn = read.length
  first : 0 < t.lastSpan.first
  height : t.lastSpan.last + 1 = t.lastSpan.first + t.reader.lastHeight
  unread : ∀ line, t.reader.unread = some line → line.height = t.reader.lastHeight
  whole : ∀ text, Text.decodeUtf8 bytes = .whole text →
    ∀ taking ∈ t.takings, taking.delivered = true

namespace Reaches

lemma lastHeight_le (h : t.Reaches bytes read s) (hunread : t.reader.unread = none) :
    t.reader.lastHeight ≤ t.reader.linenr := by
  have hlinenr := h.position.linenr_of_unread hunread
  have hlast := h.last
  have hfirst := h.first
  have hheight := h.height
  omega

lemma putBack (h : t.Reaches bytes read s) (hunread : t.reader.unread = none) (text : List Char) :
    { t with
      reader := { t.reader with
        linenr := t.reader.linenr - t.reader.lastHeight
        unread := some ⟨text, t.reader.lastHeight⟩ } }.Reaches bytes read s :=
  { h with
    position := { h.position with
      linenr := (Nat.sub_add_cancel (h.lastHeight_le hunread)).trans
        (h.position.linenr_of_unread hunread) }
    unread := by
      intro line hline
      cases hline
      rfl }

lemma delivered (h : t.Reaches bytes read s) {read' : List (List Char)} {s' : Stretch}
    (hreader : reader.HasRead bytes read' s') (hunread : reader.unread = none)
    (hstart : 0 < reader.lineStart)
    (hheight : reader.linenr + 1 = reader.lineStart + reader.lastHeight) :
    (t.delivered reader).Reaches bytes read' s' where
  position := hreader
  last := by
    rw [lastSpan_delivered, torn_delivered]
    exact hreader.linenr_of_unread hunread
  first := by
    rw [lastSpan_delivered]
    exact hstart
  height := by
    rw [lastSpan_delivered]
    exact hheight
  unread := by
    intro line hline
    rw [show reader.unread = some line from hline] at hunread
    cases hunread
  whole := by
    intro text hwhole taking hmem
    rcases List.mem_append.1 hmem with hmem | hmem
    · exact h.whole text hwhole taking hmem
    · rw [List.mem_singleton.1 hmem]

lemma reread (h : t.Reaches bytes read s) (hunread : t.reader.unread = some line) :
    (t.delivered { t.reader.take line with unread := none }).Reaches bytes read s := by
  refine h.delivered ?_ rfl (Nat.succ_pos _) (Nat.add_right_comm _ _ _)
  have hlinenr := h.position.linenr
  rw [LineReader.unreadHeight, hunread] at hlinenr
  exact { h.position with linenr := hlinenr }

lemma readLine (h : t.Reaches bytes read s) (hunread : t.reader.unread = none)
    (hrest : t.reader.rest = line :: rest) :
    ∃ read' s', (t.delivered { t.reader.take line with rest }).Reaches bytes read' s' := by
  obtain ⟨taken, left, -, -, hreader⟩ := h.position.readLine hunread hrest
  exact ⟨_, _, h.delivered hreader hunread (Nat.succ_pos _) (Nat.add_right_comm _ _ _)⟩

lemma failed (h : t.Reaches bytes read s) (hunread : t.reader.unread = none)
    (hrest : t.reader.rest = []) (hdamage : t.reader.damage = some damage) :
    ∃ read' s', (t.failed t.reader.afterDamage).Reaches bytes read' s' := by
  obtain ⟨s', hreader⟩ := h.position.afterDamage hunread hrest hdamage
  obtain ⟨hsame, hheight, -⟩ := t.reader.keeps_afterDamage
  refine ⟨read ++ s.physical, s', ?_⟩
  exact
    { position := hreader
      last := by
        rw [lastSpan_failed, torn_failed, hreader.linenr_of_unread (hsame.trans hunread),
          h.position.linenr_of_unread hunread, List.length_append, Nat.add_sub_cancel_left,
          ← Nat.add_assoc, h.last]
      first := by
        rw [lastSpan_failed]
        exact h.first
      height := by
        rw [lastSpan_failed]
        exact h.height.trans (congrArg (_ + ·) hheight.symm)
      unread := by
        intro line hline
        rw [show t.reader.afterDamage.unread = some line from hline, hunread] at hsame
        cases hsame
      whole := by
        intro text hwhole
        rw [h.position.damage_of_whole hwhole] at hdamage
        cases hdamage }

lemma performs (h : t.Reaches bytes read s) {answer : Except Fault (Option (List Char))}
    (hperforms : t.Performs request (answer, t')) : ∃ read' s', t'.Reaches bytes read' s' := by
  cases hperforms with
  | refused => exact ⟨read, s, h⟩
  | putBack hunread => exact ⟨read, s, h.putBack hunread _⟩
  | reread _ hunread => exact ⟨read, s, h.reread hunread⟩
  | read _ hunread hrest => exact h.readLine hunread hrest
  | fileEnd => exact ⟨read, s, h⟩
  | failed _ hunread hrest hdamage => exact h.failed hunread hrest hdamage

theorem run (h : t.Reaches bytes read s) (requests : List LineRequest) :
    ∃ read' s', (t.run requests).Reaches bytes read' s' := by
  induction requests generalizing t read s with
  | nil => exact ⟨read, s, h⟩
  | cons request requests ih =>
    obtain ⟨read', s', h'⟩ := h.performs (t.performs_perform request)
    exact ih h'

end Reaches

/-- Nothing has been put back, and what the reads have taken follows each other. -/
structure Tiled (t : LineHistory) : Prop where
  unread : t.reader.unread = none
  lines : t.takings.flatMap (·.span.lines) = List.range' 1 t.reader.linenr
  nonempty : ∀ taking ∈ t.takings, taking.delivered = true → taking.span.first ≤ taking.span.last

namespace Tiled

lemma append (htiled : t.Tiled) {taking : Taking} (hunread : reader.unread = none)
    (hfirst : taking.span.first = t.reader.linenr + 1) (hlast : taking.span.last = reader.linenr)
    (hle : t.reader.linenr ≤ reader.linenr)
    (hlt : taking.delivered = true → t.reader.linenr < reader.linenr) :
    Tiled { reader, takings := t.takings ++ [taking] } where
  unread := hunread
  lines := by
    obtain ⟨height, hheight⟩ := Nat.exists_eq_add_of_le hle
    have hspan : taking.span.lines = List.range' (1 + t.reader.linenr) height := by
      rw [Span.lines, hfirst, hlast, hheight, Nat.add_sub_add_right, Nat.add_sub_cancel_left,
        Nat.add_comm 1]
    rw [List.flatMap_append, htiled.lines, List.flatMap_singleton, hspan, hheight]
    exact List.range'_append_1
  nonempty := by
    intro taking' hmem hdelivered
    rcases List.mem_append.1 hmem with hmem | hmem
    · exact htiled.nonempty taking' hmem hdelivered
    · obtain rfl := List.mem_singleton.1 hmem
      rw [hfirst, hlast]
      exact hlt hdelivered

lemma readLine (htiled : t.Tiled) (h : t.Reaches bytes read s)
    (hrest : t.reader.rest = line :: rest) :
    (t.delivered { t.reader.take line with rest }).Tiled := by
  have hpositive : 0 < line.height := by
    have hmem : line ∈ t.reader.rest := by
      rw [hrest]
      exact List.mem_cons_self
    rw [h.position.rest] at hmem
    exact Line.height_ofPhysical hmem
  exact htiled.append htiled.unread rfl rfl (Nat.le_add_right _ _)
    fun _ => Nat.lt_add_of_pos_right hpositive

lemma failed (htiled : t.Tiled) : (t.failed t.reader.afterDamage).Tiled := by
  obtain ⟨hsame, -, hle⟩ := t.reader.keeps_afterDamage
  exact htiled.append (hsame.trans htiled.unread) rfl rfl hle fun hdelivered => nomatch hdelivered

lemma performs (htiled : t.Tiled) (h : t.Reaches bytes read s) (hread : request.isRead = true)
    {answer : Except Fault (Option (List Char))} (hperforms : t.Performs request (answer, t')) :
    t'.Tiled := by
  cases hperforms with
  | refused => cases hread
  | putBack => cases hread
  | reread _ hunread =>
    rw [htiled.unread] at hunread
    cases hunread
  | read _ _ hrest => exact htiled.readLine h hrest
  | fileEnd => exact htiled
  | failed => exact htiled.failed

theorem run {requests : List LineRequest} (htiled : t.Tiled) (h : t.Reaches bytes read s)
    (hread : ∀ request ∈ requests, request.isRead = true) : (t.run requests).Tiled := by
  induction requests generalizing t read s with
  | nil => exact htiled
  | cons request requests ih =>
    obtain ⟨hfirst, hothers⟩ := List.forall_mem_cons.1 hread
    obtain ⟨read', s', h'⟩ := h.performs (t.performs_perform request)
    exact ih (htiled.performs h hfirst (t.performs_perform request)) h' hothers

end Tiled

/-- The numbers of the reader account for what has been read of the file. -/
structure Accounts (bytes : List UInt8) (t : LineHistory) : Prop where
  /-- The number of the last line counts the physical lines that have been read, but for a line that
  has been put back. -/
  counted : ∃ read s, t.reader.HasRead bytes read s
  /-- A text can be put back if none is there, and the number of the last line goes back by no more
  than it has reached. -/
  putBack : t.reader.unread = none → ∀ text, ∃ t', t.perform (.putBack text) = (.ok none, t') ∧
    t'.reader.linenr + t.reader.lastHeight = t.reader.linenr ∧
      t'.reader.unread.map (·.text) = some text
  /-- What makes no sense changes nothing. -/
  refused : ∀ request misuse t', t.perform request = (.error (.misuse misuse), t') → t' = t
  /-- A line starts after the last line before it. -/
  lineStart : ∀ request text t', t.perform request = (.ok (some text), t') →
    t'.reader.lineStart = t.reader.linenr + 1
  /-- A text that has been put back is read again, with the numbers of the last line delivered moved
  on by the physical lines that failing reads have taken since. -/
  reread : ∀ line, t.reader.unread = some line → ∃ t',
    t.perform .next = (.ok (some line.text), t') ∧
      t.perform .nextRaw = (.ok (some (Line.raw line.text)), t') ∧
        ∀ span ∈ t.spans.getLast?, t'.reader.lineStart = span.first + t.torn ∧
          t'.reader.linenr = span.last + t.torn
  /-- No physical lines of a text are lost. -/
  torn : ∀ text, Text.decodeUtf8 bytes = .whole text → t.torn = 0

/-- A line in two parts and one in one. -/
def joined : List UInt8 :=
  "a\\\nb\nc\n".toUTF8.toList

/-- A line, and one that would go on where the file is cut off. -/
def cutOff : List UInt8 :=
  [0x61, 0x0a, 0x62, 0x5c, 0x0a, 0xe2]

end LineHistory

end Kconfig
