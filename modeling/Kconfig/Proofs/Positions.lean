import Kconfig.Proofs.LineNumbers
import Kconfig.Proofs.RawLines
import Kconfig.Proofs.Streams
import Mathlib.Data.List.Forall2

/-!
# Positions in a file

Where a token comes from is a matter of how many lines of its file have been read, and the number of
the line follows from that. The counters of line readers and token streams agree with the position,
whichever way the lines are read: as tokens or raw, with tokens and lines that are put back.
-/

namespace Kconfig

namespace Line

/-- The number of the first physical line of the line with the index `k`. -/
def start (lines : List Line) (k : Nat) : Nat :=
  totalHeight (lines.take k) + 1

lemma totalHeight_concat (lines : List Line) (line : Line) :
    totalHeight (lines ++ [line]) = totalHeight lines + line.height := by
  rw [totalHeight, List.map_append, List.sum_append]
  rfl

lemma start_length (before after : List Line) :
    start (before ++ after) before.length = totalHeight before + 1 := by
  rw [start, List.take_left]

variable {cut : Bool} {physical gathered lines : List (List Char)} {text : List Char}
  {height k : Nat} {line : Line}

lemma ofPhysical_take (hlength : gathered.length = height)
    (hgathered : ∀ more, ofPhysical cut (gathered ++ more) = joinFrom cut text height more)
    (hend : joinFrom cut text height [] = [line]) :
    ofPhysical cut ((gathered ++ lines).take height) = [line] := by
  rw [← hlength, List.take_left, ← List.append_nil gathered, hgathered, hend]

lemma joinFrom_take_drop (hlength : gathered.length = height)
    (hgathered : ∀ more, ofPhysical cut (gathered ++ more) = joinFrom cut text height more)
    (hk : (joinFrom cut text height lines)[k]? = some line) :
    ofPhysical cut (((gathered ++ lines).drop
      (totalHeight ((joinFrom cut text height lines).take k))).take line.height) = [line] := by
  fun_induction joinFrom cut text height lines generalizing gathered k with
  | case1 text height front hjoin hcut => cases hk
  | case2 text height front hjoin hcut =>
    cases k with
    | zero =>
      cases hk
      exact ofPhysical_take hlength hgathered (by rw [joinFrom, hjoin]; exact if_neg hcut)
    | succ k => cases hk
  | case3 text height hend =>
    cases k with
    | zero =>
      cases hk
      exact ofPhysical_take hlength hgathered (by rw [joinFrom, hend])
    | succ k => cases hk
  | case4 text height next lines front hjoin ih =>
    have hnext : ∀ more, ofPhysical cut (gathered ++ [next] ++ more) =
        joinFrom cut (front ++ next) (height + 1) more := by
      intro more
      rw [List.append_assoc, List.singleton_append, hgathered, joinFrom, hjoin]
    have hrec := ih (by rw [List.length_append, hlength, List.length_singleton]) hnext hk
    rwa [List.append_assoc] at hrec
  | case5 text height next lines hend ih =>
    cases k with
    | zero =>
      cases hk
      exact ofPhysical_take hlength hgathered (by rw [joinFrom, hend])
    | succ k =>
      have hfirst : ∀ more, ofPhysical cut ([next] ++ more) = joinFrom cut next 1 more :=
        fun more => rfl
      have hrec := ih rfl hfirst hk
      rw [List.take_succ_cons, totalHeight_cons, ← List.drop_drop]
      dsimp only
      rw [← hlength, List.drop_left]
      exact hrec

/-- From the physical line with the number `start` on, as many as the height says make up the
logical line. -/
theorem ofPhysical_start (hk : (ofPhysical cut physical)[k]? = some line) :
    ofPhysical cut ((physical.drop (start (ofPhysical cut physical) k - 1)).take line.height) =
      [line] := by
  cases physical with
  | nil => cases hk
  | cons first physical =>
    have hfirst : ∀ more, ofPhysical cut ([first] ++ more) = joinFrom cut first 1 more :=
      fun more => rfl
    exact joinFrom_take_drop rfl hfirst hk

/-- What is read for a line: its text as it stands, or in its raw form if it has been put back. -/
structure ReadAs (line line' : Line) : Prop where
  height : line'.height = line.height
  text : line'.text = line.text ∨ line'.text = raw line.text

lemma ReadAs.raw_eq {line line' : Line} (h : line.ReadAs line') :
    raw line'.text = raw line.text := by
  rcases h.text with htext | htext
  · rw [htext]
  · rw [htext, raw_raw]

end Line

/-- Unless the token is the end of the file, it comes from the line with the index `k`, and it
carries the number of the first physical line of that. -/
def Token.From (lines : List Line) (k : Nat) (token : Token) : Prop :=
  token.lexeme ≠ .fileEnd → ∃ line, lines[k]? = some line ∧ token.linenr = Line.start lines k ∧
    (token.lexeme ∈ Lexeme.scan line.text ∨ token.lexeme ∈ Lexeme.scan (Line.raw line.text))

namespace LineReader

variable {before after : List Line} {r r' : LineReader} {text : List Char} {line : Line}

/-- The lines before the position have been read, and those after it are to come. -/
structure Between (before after : List Line) (r : LineReader) : Prop where
  upcoming : List.Forall₂ Line.ReadAs after r.upcoming
  linenr : r.linenr = Line.totalHeight before
  lastHeight : r.unread = none → ∀ line ∈ before.getLast?, r.lastHeight = line.height

lemma between_ofBytes (file : String) (bytes : List UInt8) :
    (ofBytes file bytes).Between [] (Line.ofBytes bytes).1 where
  upcoming := List.forall₂_same.2 fun _ _ => ⟨rfl, .inl rfl⟩
  linenr := rfl
  lastHeight := fun _ _ hline => nomatch hline

lemma pending_eq (r : LineReader) : r.pending = r.upcoming.length := by
  rw [pending, upcoming, List.length_append, Nat.add_comm]

lemma Between.pending (h : r.Between before after) : r.pending = after.length := by
  rw [pending_eq, h.upcoming.length_eq]

lemma Between.next (h : r.Between before after) (hnext : r.next = .ok (some text, r')) :
    ∃ line after', after = line :: after' ∧ r'.Between (before ++ [line]) after' ∧
      line.ReadAs ⟨text, line.height⟩ ∧ r'.lineStart = Line.totalHeight before + 1 ∧
        r'.unread = none := by
  obtain ⟨read, rest, hup, rfl, hup', hunread, hlinenr, hstart, hlast, -⟩ := next_eq_some hnext
  have hlines := h.upcoming
  rw [hup] at hlines
  cases hlines with
  | @cons line _ after' _ hread hrest =>
    refine ⟨line, after', rfl, ⟨hup' ▸ hrest, ?_, ?_⟩, ⟨rfl, hread.text⟩, ?_, hunread⟩
    · rw [hlinenr, h.linenr, hread.height, Line.totalHeight_concat]
    · intro _ last hmem
      rw [List.getLast?_concat] at hmem
      cases hmem
      rw [hlast, hread.height]
    · rw [hstart, h.linenr]

lemma Between.putBack (h : r.Between (before ++ [line]) after) (hunread : r.unread = none)
    (hput : r.putBack (Line.raw line.text) = .ok r') : r'.Between before (line :: after) := by
  have hheight := h.lastHeight hunread line (List.getLast?_concat)
  have hupcoming := h.upcoming
  unfold LineReader.putBack at hput
  rw [hunread] at hput
  cases hput
  rw [LineReader.upcoming, hunread] at hupcoming
  refine ⟨.cons ⟨hheight, .inr rfl⟩ hupcoming, ?_, ?_⟩
  · dsimp only
    rw [h.linenr, Line.totalHeight_concat, hheight, Nat.add_sub_cancel]
  · intro hnone
    cases hnone

end LineReader

lemma Token.from_ofLine {before after : List Line} {line : Line} {text : List Char}
    (htext : line.ReadAs ⟨text, line.height⟩) {token : Token}
    (hmem : token ∈ Token.ofLine (Line.totalHeight before + 1) text) :
    token.From (before ++ line :: after) before.length := by
  obtain ⟨lexeme, hlexeme, rfl⟩ := List.mem_map.1 hmem
  intro _
  refine ⟨line, ?_, (Line.start_length _ _).symm, ?_⟩
  · rw [List.getElem?_append_right (Nat.le_refl _), Nat.sub_self, List.getElem?_cons_zero]
  · rcases htext.text with h | h
    · exact .inl (h ▸ hlexeme)
    · exact .inr (h ▸ hlexeme)

namespace TokenStream

variable {lines before after : List Line} {s t : TokenStream} {token : Token}

/-- The index of the line that has been read last, in a file with the given lines. -/
def present (lines : List Line) (s : TokenStream) : Nat :=
  lines.length - s.lines.pending - 1

lemma present_eq (h : s.lines.Between before after) :
    s.present (before ++ after) = before.length - 1 := by
  rw [present, h.pending, List.length_append, Nat.add_sub_cancel]

/-- What loading leads to: some tokens are left of the present line, or there is no further line, or
the next line has been read. -/
inductive Loads (before after : List Line) (s : TokenStream) : TokenStream → Prop where
  | present (hne : s.upcoming ≠ []) : Loads before after s s
  | fileEnd (hnil : s.upcoming = []) :
    Loads before after s { s with rest := [⟨.fileEnd, s.linenr⟩] }
  | next {line : Line} {after' : List Line} {reader : LineReader} {text : List Char}
    (hnil : s.upcoming = []) (hafter : after = line :: after')
    (hreader : reader.Between (before ++ [line]) after')
    (htext : line.ReadAs ⟨text, line.height⟩)
    (hstart : reader.lineStart = Line.totalHeight before + 1) :
    Loads before after s (s.holding reader text)

lemma loads_of_load (h : s.lines.Between before after) (hload : s.load = .ok t) :
    Loads before after s t := by
  unfold load at hload
  split at hload
  · rename_i hne
    cases hload
    exact .present hne
  · rename_i hnil
    have hnil := Decidable.not_not.1 hnil
    split at hload
    · cases hload
    · cases hload
      exact .fileEnd hnil
    · rename_i text reader hnext
      cases hload
      obtain ⟨line, after', hafter, hreader, htext, hstart, -⟩ := h.next hnext
      exact .next hnil hafter hreader htext hstart

/-- The tokens that are left of the present line come from the line that has been read last. -/
structure Seated (before after : List Line) (s : TokenStream) : Prop where
  reader : s.lines.Between before after
  upcoming : ∀ token ∈ s.upcoming, token.lexeme ≠ .fileEnd →
    token.linenr = s.linenr ∧ token.From (before ++ after) (before.length - 1)

/-- The stream is at some position among the lines. -/
def SeatedIn (lines : List Line) (s : TokenStream) : Prop :=
  ∃ before after, lines = before ++ after ∧ s.Seated before after

lemma Seated.of_nil (hreader : s.lines.Between before after) (hnil : s.upcoming = []) :
    s.Seated before after where
  reader := hreader
  upcoming := by
    rw [hnil]
    exact List.forall_mem_nil _

lemma Seated.load (h : s.Seated before after) (hload : s.load = .ok t) :
    t.SeatedIn (before ++ after) := by
  cases loads_of_load h.reader hload with
  | present => exact ⟨before, after, rfl, h⟩
  | fileEnd hnil =>
    refine ⟨before, after, rfl, h.reader, ?_⟩
    rw [upcoming_refill hnil]
    intro token hmem hend
    rw [List.mem_singleton] at hmem
    rw [hmem] at hend
    exact absurd rfl hend
  | @next line after' reader text hnil hafter hreader htext hstart =>
    subst hafter
    refine ⟨before ++ [line], after', List.append_cons _ _ _, hreader, ?_⟩
    rw [holding, upcoming_refill hnil, hstart, List.length_append, List.length_singleton,
      Nat.add_sub_cancel, ← List.append_cons]
    intro token hmem _
    refine ⟨?_, Token.from_ofLine htext hmem⟩
    obtain ⟨lexeme, -, rfl⟩ := List.mem_map.1 hmem
    rfl

lemma Seated.stopAt (h : s.Seated before after) {stop : Stop}
    (hstop : stop.upcoming <:+ s.upcoming) : (s.stopAt stop).Seated before after where
  reader := h.reader
  upcoming := by
    rw [upcoming_stopAt]
    exact fun token hmem => h.upcoming token (hstop.subset hmem)

lemma readLine_eq_none (h : s.readLine = .ok (none, t)) :
    t = s ∨ s.AtLine ∧ t = s.movedTo s.lines s.lines.lineStart := by
  unfold TokenStream.readLine at h
  split at h
  · cases h
    exact .inl rfl
  · split at h
    · cases h
    · rename_i hbetween
      split at h
      · cases h
      · rename_i line' reader hraw
        cases h
        unfold LineReader.nextRaw at hraw
        split at hraw
        · cases hraw
        · rename_i text reader' hnext
          simp only [Except.ok.injEq, Prod.mk.injEq, Option.map_eq_none_iff] at hraw
          obtain ⟨rfl, rfl⟩ := hraw
          rw [LineReader.next_none hnext]
          exact .inr ⟨betweenLines_eq_ok.1 hbetween, rfl⟩

lemma between_readLine {raw : List Char} (h : s.lines.Between before after)
    (hread : s.readLine = .ok (some raw, t)) :
    s.AtLine ∧ ∃ line after' reader, after = line :: after' ∧
      t = s.movedTo reader reader.lineStart ∧
      reader.Between (before ++ [line]) after' ∧ reader.unread = none ∧
        raw = Line.raw line.text := by
  obtain ⟨hline, text, reader, hnext, rfl, rfl⟩ := readLine_eq_some hread
  obtain ⟨line, after', hafter, hreader, htext, -, hunread⟩ := h.next hnext
  exact ⟨hline, line, after', reader, hafter, rfl, hreader, hunread, htext.raw_eq⟩

lemma between_unreadLine {line : Line} (h : s.lines.Between (before ++ [line]) after)
    (hunread : s.lines.unread = none) (hput : s.unreadLine (Line.raw line.text) = .ok t) :
    s.AtLine ∧
      ∃ reader, t = { s with lines := reader } ∧ reader.Between before (line :: after) := by
  unfold TokenStream.unreadLine at hput
  split at hput
  · cases hput
  · rename_i hbetween
    split at hput
    · cases hput
    · rename_i reader hreader
      cases hput
      exact ⟨betweenLines_eq_ok.1 hbetween, reader, rfl, h.putBack hunread hreader⟩

lemma Seated.takeLines {p : List Char → Bool} {raws : List (List Char)} {stop : Option (List Char)}
    (h : s.Seated before after) (htake : s.takeLines p = .ok (raws, stop, t)) :
    t.SeatedIn (before ++ after) := by
  fun_induction TokenStream.takeLines p s generalizing before after raws stop t with
  | case1 s fault hread => cases htake
  | case2 s u hread =>
    cases htake
    rcases readLine_eq_none hread with rfl | ⟨hline, rfl⟩
    · exact ⟨before, after, rfl, h⟩
    · exact ⟨before, after, rfl, .of_nil h.reader hline.upcoming⟩
  | case3 s raw u hread hp fault hrest ih => cases htake
  | case4 s raw u hread hp raws' stop' v hrest ih =>
    cases htake
    obtain ⟨hline, line, after', reader, rfl, rfl, hreader, -⟩ := between_readLine h.reader hread
    rw [List.append_cons]
    exact ih (.of_nil hreader hline.upcoming) hrest
  | case5 s raw u hread hp fault hunread => cases htake
  | case6 s raw u hread hp v hunread =>
    cases htake
    obtain ⟨hline, line, after', reader, rfl, rfl, hreader, hnone, rfl⟩ :=
      between_readLine h.reader hread
    obtain ⟨-, reader', rfl, hreader'⟩ := between_unreadLine hreader hnone hunread
    exact ⟨before, line :: after', rfl, .of_nil hreader' hline.upcoming⟩

lemma stable_seatedIn (fs : FileSystem) (root : String) :
    Stable fun s => ∃ bytes, fs.look (Path.join root s.file) = .file bytes ∧
      s.SeatedIn (Line.ofBytes bytes).1 where
  load := by
    rintro s t ⟨bytes, hlook, before, after, hlines, h⟩ hload
    rw [← (load_after hload).1.1] at hlook
    exact ⟨bytes, hlook, hlines ▸ h.load hload⟩
  stopAt := by
    rintro s stop ⟨bytes, hlook, before, after, hlines, h⟩ hstop
    exact ⟨bytes, hlook, before, after, hlines, h.stopAt hstop⟩
  takeLines := by
    rintro s t p raws stop ⟨bytes, hlook, before, after, hlines, h⟩ htake
    rw [← (takeLines_after htake).1] at hlook
    exact ⟨bytes, hlook, hlines ▸ h.takeLines htake⟩

lemma SeatedIn.next (h : s.SeatedIn lines) (hnext : s.next = .ok (token, t))
    (hend : token.lexeme ≠ .fileEnd) :
    token.linenr = t.linenr ∧ token.From lines (t.present lines) := by
  obtain ⟨before, after, rfl, h⟩ := h
  obtain ⟨u, rest, hload, hupcoming, -, rfl⟩ := next_eq_ok.1 hnext
  obtain ⟨before', after', hlines, h'⟩ := h.load hload
  rw [hlines]
  have htoken := h'.upcoming token (hupcoming ▸ List.mem_cons_self) hend
  rw [← present_eq h'.reader] at htoken
  exact htoken

end TokenStream

end Kconfig
