import Kconfig.Proofs.BarePaths
import Kconfig.Proofs.Expressions
import Kconfig.Proofs.Recursion
import Kconfig.Proofs.Restoration
import Kconfig.Proofs.Snapshots
import Kconfig.Proofs.Twins.Requests

/-!
# Paths with and without quotes

An inclusion directive has the same effect whether its path is in quotes or not: it fails alike, or
leaves the same state. It is read in two files that differ in this line alone. Where a help text has
looked at the line, its raw form is read in its place, and that lacks what is blank at the end of a
path without quotes.
-/

namespace Kconfig

open Context

/-- The readers are the same but for the line that they read next. It is `a` in the file of the one
and `b` in that of the other, and has been put back by both in its raw form or by none. -/
inductive LineReader.Contrast (a b : List Char) : LineReader → LineReader → Prop where
  | fresh {r : LineReader} (hunread : r.unread = none) (height : Nat) (rest : List Line) :
    Contrast a b { r with rest := ⟨a, height⟩ :: rest } { r with rest := ⟨b, height⟩ :: rest }
  | returned (r : LineReader) (height : Nat) :
    Contrast a b { r with unread := some ⟨Line.raw a, height⟩ }
      { r with unread := some ⟨Line.raw b, height⟩ }

lemma LineReader.Contrast.next {a b : List Char} {r r' : LineReader} (h : Contrast a b r r') :
    ∃ lines, lines.file = r.file ∧
      ((r.next = .ok (some a, lines) ∧ r'.next = .ok (some b, lines)) ∨
        r.unread ≠ none ∧ r.next = .ok (some (Line.raw a), lines) ∧
          r'.next = .ok (some (Line.raw b), lines)) := by
  cases h with
  | @fresh r hunread height rest =>
    obtain ⟨file, lines, damage, later, linenr, lineStart, lastHeight, unread⟩ := r
    cases hunread
    let lines : LineReader :=
      { file, rest, damage, later, linenr := linenr + height, lineStart := linenr + 1,
        lastHeight := height }
    exact ⟨lines, rfl, .inl ⟨rfl, rfl⟩⟩
  | returned r height =>
    exact ⟨{ r.take ⟨Line.raw a, height⟩ with unread := none }, rfl,
      .inr ⟨Option.some_ne_none _, rfl, rfl⟩⟩

lemma LineReader.contrast_of_unread {a : List Char} {r : LineReader} {height : Nat}
    (h : r.unread = some ⟨Line.raw a, height⟩) (b : List Char) :
    r.Contrast a b { r with unread := some ⟨Line.raw b, height⟩ } := by
  have hr : r = { r with unread := some ⟨Line.raw a, height⟩ } := by rw [← h]
  rw [hr]
  exact .returned r height

/-- The context when the present file is read by another line reader. -/
def Context.reading (ctx : Context) (lines : LineReader) : Context :=
  { ctx with files := ctx.files.modifyHead fun s => { s with lines } }

def State.reading (s : State) (lines : LineReader) : State :=
  { s with ctx := s.ctx.reading lines }

/-- Two states of runs over file systems that differ in the contents of files alone. Between the
lines of the same file they are the same but for the line that is read next. -/
structure State.Contrast (s : State) (fs fs' : FileSystem) (settings : Settings)
    (stream : TokenStream) (below : List TokenStream) (a b : List Char) (s' : State) : Prop where
  alike : fs.Alike fs'
  reachable : Reachable fs settings s
  reachable' : Reachable fs' settings s'
  files : s.ctx.files = stream :: below
  between : stream.upcoming = []
  lines : ∃ lines, stream.lines.Contrast a b lines ∧ s' = s.reading lines

/-- Reads what a line with a block keyword says. A config or comment ends in front of the line,
which is then read in the entry around it. -/
def State.readBlockLine (fs : FileSystem) (s : State) : Except Fault Progress := do
  match ← s.step fs with
  | .running s' => if s.frame.entry.kind.isBlock then return .running s' else s'.step fs
  | .finished e ctx => return .finished e ctx

/-- The context when these tokens are left of the present line. -/
def Context.inLine (ctx : Context) (s : TokenStream) (rest : List Token) : Context :=
  ctx.setCurrent { s with rest }

/-- What an inclusion directive does when its path and the text behind it have been read. -/
def Context.follow (fs : FileSystem) (ctx : Context) (kind : SourceKind) (start : Location)
    (value : String × List String) : Except Fault Context := do
  let ctx := ctx.note (kind.extraFindings start value.2)
  let path ← ctx.substitute value.1
  if path.whole?.any (·.trimBlanks = "") then .error (ctx.malformed (.pathExpected kind.keyword))
  else ctx.openTarget fs kind start (kind.target (← ctx.current).file path)

namespace Context

variable {fs : FileSystem} {ctx ctx' : Context} {s : TokenStream} {below : List TokenStream}
  {token : Token} {tokens tokens' : List Token} {kind : SourceKind}
  {r : Reading (String × List String)}

lemma next_reading {lines r : LineReader} {text : List Char} (hfiles : ctx.files = s :: below)
    (hline : s.upcoming = []) (hnext : r.next = .ok (some text, lines))
    (htokens : Token.ofLine lines.lineStart text = token :: tokens)
    (hdigits : token.lexeme.excessDigits? = none) :
    (ctx.reading r).next = .ok (token, ctx.inLine
      { s with
        lines
        linenr := lines.lineStart
        current := some token
        pushedBack := false } tokens) := by
  have hcurrent : (ctx.reading r).current = .ok { s with lines := r } := by
    rw [reading, hfiles]
    rfl
  have hload : TokenStream.load { s with lines := r } = .ok (s.holding lines text) := by
    have hupcoming : ¬TokenStream.upcoming { s with lines := r } ≠ [] := not_not.2 hline
    rw [TokenStream.load, if_neg hupcoming, hnext]
    rfl
  have hupcoming : (s.holding lines text).upcoming = token :: tokens := by
    rw [← htokens]
    exact TokenStream.upcoming_refill hline _ _ _
  have hdelivered := TokenStream.next_eq_ok.2 ⟨_, _, hload, hupcoming, hdigits, rfl⟩
  rw [next, hcurrent]
  change (TokenStream.next { s with lines := r } >>= _) = _
  rw [hdelivered]
  change Except.ok _ = _
  rw [inLine, setCurrent, setCurrent, reading, hfiles]
  rfl

lemma location_inLine : (ctx.inLine s tokens).location = .ok s.location :=
  rfl

lemma pushBack_inLine (hback : s.pushedBack = false) (hcurrent : s.current = some token) :
    (ctx.inLine s tokens).pushBack = .ok (ctx.inLine { s with pushedBack := true } tokens) := by
  change (TokenStream.pushBack { s with rest := tokens } >>= _) = _
  unfold TokenStream.pushBack
  rw [if_neg (by simp [hback]), if_neg (by simp [hcurrent])]
  rfl

lemma next_inLine (hcurrent : s.current = some token) (hdigits : token.isDeliverable = true) :
    (ctx.inLine { s with pushedBack := true } tokens).next =
      .ok (token, ctx.inLine { s with pushedBack := false } tokens) := by
  have hupcoming : TokenStream.upcoming { s with rest := tokens, pushedBack := true } =
      token :: tokens := by
    rw [TokenStream.upcoming, if_pos rfl, hcurrent]
    rfl
  change TokenStream.next { s with rest := tokens, pushedBack := true } >>= _ = _
  rw [TokenStream.next_of_upcoming hupcoming hdigits, TokenStream.stopAt, ← hcurrent]
  rfl

lemma setSymbol_inLine (e : Entry) :
    (ctx.inLine s tokens).setSymbol e = (ctx.setSymbol e).inLine s tokens := by
  unfold setSymbol
  cases e.head.symbol.filter (· ≠ "") <;> rfl

lemma define_inLine (e : Entry) :
    (ctx.inLine s tokens).define e = (ctx.define e).inLine s tokens := by
  unfold define
  cases hsymbol : e.head.symbol.filter (· ≠ "") with
  | none => rfl
  | some symbol =>
    dsimp only
    rw [← setSymbol_inLine]
    rfl

lemma readLine_of_upcoming {α : Type} {read : List Token → Except ReadFailure (Reading α)}
    {r : Reading α} (hfiles : ctx.files = s :: below) (hline : s.upcoming = token :: tokens)
    (hdigits : ∀ t ∈ token :: tokens, t.isDeliverable = true) (h : read (token :: tokens) = .ok r) :
    ctx.readLine read = .ok (r, ctx.setCurrent (s.stopAt r.stop)) := by
  have hcurrent : ctx.current = .ok s := by rw [current, hfiles]
  refine readLine_eq_ok.2 ⟨s, s, hcurrent, TokenStream.load_of_upcoming hline, ?_, rfl⟩
  rw [hline, readDeliverable_of_all hdigits, h]

lemma readSource_inLine (hback : s.pushedBack = false)
    (hdigits : ∀ t ∈ tokens, t.isDeliverable = true) (h : kind.readPath tokens = .ok r) :
    (ctx.inLine s tokens).readSource fs kind =
      (ctx.setCurrent (s.stopAt r.stop)).follow fs kind s.location r.value := by
  have hline : TokenStream.upcoming { s with rest := tokens } = tokens := by
    rw [TokenStream.upcoming, if_neg (by simp [hback])]
  have hne : tokens ≠ [] := by
    rintro rfl
    cases h
  obtain ⟨token, rest, rfl⟩ := List.exists_cons_of_ne_nil hne
  have hread : (ctx.inLine s (token :: rest)).readLine kind.readPath =
      .ok (r, ctx.setCurrent (s.stopAt r.stop)) :=
    readLine_of_upcoming (s := { s with rest := token :: rest }) rfl hline hdigits h
  rw [readSource, location_inLine]
  change (readLine _ _ >>= _) = _
  rw [hread]
  rfl

/-- The context after a file has been opened. -/
def withFile (ctx : Context) (name : String) (bytes : List UInt8) : Context :=
  { ctx with
    files := { lines := LineReader.ofBytes name bytes } :: ctx.files
    visited := ctx.visited ++ [name] }

/-- What an inclusion directive does in two file systems when its path has been read: it fails, it
reports that the file is missing, or it opens the file. -/
inductive Follows (fs fs' : FileSystem) (ctx : Context) :
    Except Fault Context → Except Fault Context → Prop where
  | fault (fault : Fault) : Follows fs fs' ctx (.error fault) (.error fault)
  | missing {ctx' : Context} (hfiles : ctx'.files = ctx.files)
    (hvisited : ctx'.visited = ctx.visited) : Follows fs fs' ctx (.ok ctx') (.ok ctx')
  | opened {ctx' : Context} {name : String} {bytes bytes' : List UInt8}
    (hfiles : ctx'.files = ctx.files) (hvisited : ctx'.visited = ctx.visited)
    (hlook : fs.look (Path.join ctx.root name) = .file bytes)
    (hlook' : fs'.look (Path.join ctx.root name) = .file bytes') :
    Follows fs fs' ctx (.ok (ctx'.withFile name bytes)) (.ok (ctx'.withFile name bytes'))

lemma follows_openSource {fs' : FileSystem} (hfs : fs.Alike fs') (ctx : Context) (kind : SourceKind)
    (start : Location) (target : String) :
    Follows fs fs' ctx (ctx.openSource fs kind start target)
      (ctx.openSource fs' kind start target) := by
  unfold openSource
  rw [hfs.isDirectory]
  split
  · exact .fault _
  · split
    · exact .fault _
    · unfold openFile
      dsimp only
      rcases hfs (Path.join ctx.root target) with hsame | ⟨bytes, bytes', hlook, hlook'⟩
      · rw [hsame]
        cases hlook : fs.look (Path.join ctx.root target) with
        | file bytes => exact .opened rfl rfl hlook (hsame.trans hlook)
        | missing => exact .missing rfl rfl
        | _ => exact .fault _
      · rw [hlook, hlook']
        exact .opened rfl rfl hlook hlook'

lemma follows_openLoose {fs' : FileSystem} (hfs : fs.Alike fs') (ctx : Context) (kind : SourceKind)
    (start : Location) (target : Text.Loose) :
    Follows fs fs' ctx (ctx.openLoose fs kind start target)
      (ctx.openLoose fs' kind start target) := by
  unfold openLoose
  dsimp only
  split
  · exact .fault _
  · split
    · exact .fault _
    · split
      · exact .fault _
      · rcases hfs (Path.stem (Path.joinLoose ctx.root target)) with
          hsame | ⟨bytes, bytes', hlook, hlook'⟩
        · rw [hsame]
          split
          · exact .missing rfl rfl
          · exact .missing rfl rfl
          · exact .fault _
        · rw [hlook, hlook']
          exact .fault _

lemma follows_openTarget {fs' : FileSystem} (hfs : fs.Alike fs') (ctx : Context)
    (kind : SourceKind) (start : Location) (target : Text.Loose) :
    Follows fs fs' ctx (ctx.openTarget fs kind start target)
      (ctx.openTarget fs' kind start target) := by
  unfold openTarget
  split
  · exact follows_openSource hfs ctx kind start _
  · exact follows_openLoose hfs ctx kind start target

lemma Follows.of_note {fs' : FileSystem} {findings : List Finding} {x y : Except Fault Context}
    (h : Follows fs fs' (ctx.note findings) x y) : Follows fs fs' ctx x y := by
  cases h with
  | fault fault => exact .fault fault
  | missing hfiles hvisited => exact .missing hfiles hvisited
  | opened hfiles hvisited hlook hlook' => exact .opened hfiles hvisited hlook hlook'

lemma follows_follow {fs' : FileSystem} (hfs : fs.Alike fs') (ctx : Context) (kind : SourceKind)
    (start : Location) (value : String × List String) :
    Follows fs fs' ctx (ctx.follow fs kind start value) (ctx.follow fs' kind start value) := by
  refine (?_ : Follows fs fs' (ctx.note (kind.extraFindings start value.2)) _ _).of_note
  unfold follow
  dsimp only
  generalize ctx.note (kind.extraFindings start value.2) = ctx
  cases ctx.substitute value.1 with
  | error fault => exact .fault _
  | ok path =>
    change Follows fs fs' ctx (if _ then _ else _) (if _ then _ else _)
    split
    · exact .fault _
    · cases ctx.current with
      | error fault => exact .fault _
      | ok s => exact follows_openTarget hfs ctx kind start _

end Context

namespace State

variable {fs : FileSystem} {settings : Settings} {s : State} {stream : TokenStream}
  {below : List TokenStream} {kind : SourceKind} {path a b : List Char}

lemma close_inLine {frame : Frame} {outer : List Frame} (houter : s.outer = frame :: outer)
    (ctx : Context) : ∃ c : Context, c.files = ctx.files ∧ c.visited = ctx.visited ∧
      c.root = ctx.root ∧ ∀ u tokens, s.close (ctx.inLine u tokens) = .running {
        ctx := c.inLine u tokens
        frame := frame.withEntry (frame.entry.addChild (s.frame.entry.finish s.frame.scope))
        outer } := by
  unfold close
  rw [houter]
  cases s.frame.entry.finish s.frame.scope with
  | config e =>
    refine ⟨_, files_setSymbol ctx (.config e), visited_setSymbol ctx _, root_setSymbol ctx _,
      fun u tokens => ?_⟩
    dsimp only
    rw [setSymbol_inLine]
  | choice e =>
    refine ⟨_, files_define ctx (.choice e), visited_define ctx _, root_define ctx _,
      fun u tokens => ?_⟩
    dsimp only
    rw [define_inLine]
  | _ => exact ⟨ctx, rfl, rfl, rfl, fun u tokens => rfl⟩

lemma readBlockLine_of_block (hblock : s.frame.entry.kind.isBlock = true) :
    s.readBlockLine fs = s.step fs := by
  unfold readBlockLine
  rcases s.step fs with fault | (s' | ⟨e, ctx⟩)
  · rfl
  · exact if_pos hblock
  · rfl

lemma readBlockLine_of_leaf {s' : State} (hleaf : s.frame.entry.kind.isBlock = false)
    (hstep : s.step fs = .ok (.running s')) : s.readBlockLine fs = s'.step fs := by
  rw [readBlockLine, hstep]
  exact if_neg (by simp [hleaf])

/-- Reading the line comes to reading the directive in a context and in frames that do not depend on
how the line is written. -/
lemma readBlockLine_reading (hs : Reachable fs settings s) (hfiles : s.ctx.files = stream :: below)
    (hline : stream.upcoming = []) (kind : SourceKind) (lines : LineReader) :
    ∃ (c : Context) (u : TokenStream) (frame : Frame) (outer : List Frame),
      c.files.tail = below ∧ c.visited = s.ctx.visited ∧ c.root = s.ctx.root ∧
        u.file = lines.file ∧ u.pushedBack = false ∧ ∀ fs r line tokens,
          r.next = .ok (some line, lines) →
            Token.ofLine u.linenr line = ⟨.word kind.keyword, u.linenr⟩ :: tokens →
              (s.reading r).readBlockLine fs = (c.inLine u tokens).readSource fs kind >>=
                fun ctx => .ok (.running { ctx, frame, outer }) := by
  let token : Token := ⟨.word kind.keyword, lines.lineStart⟩
  let u : TokenStream :=
    { stream with
      lines
      linenr := lines.lineStart
      current := some token
      pushedBack := false }
  have hword := kind.ofWord?_keyword
  have hbelow : ∀ c : Context, c.files = s.ctx.files → c.files.tail = below := by
    rintro c hc
    rw [hc, hfiles, List.tail_cons]
  by_cases hblock : s.frame.entry.kind.isBlock = true
  · refine ⟨s.ctx, u, s.frame, s.outer, hbelow _ rfl, rfl, rfl, rfl, rfl, ?_⟩
    intro fs r line tokens hnext h
    have hstep : (s.reading r).step fs = _ :=
      step_of_request (next_reading hfiles hline hnext h rfl) rfl hword hblock rfl
    rw [readBlockLine_of_block (s := s.reading r) hblock, hstep]
    rfl
  · have hleaf : s.frame.entry.kind.isBlock = false := by simpa using hblock
    -- The frame around a config or comment is the one that the line is read in.
    have hnested := hs.nested
    cases houter : s.outer with
    | nil =>
      rw [houter] at hnested
      rw [hnested.2] at hleaf
      cases hleaf
    | cons frame outer =>
      rw [houter] at hnested
      obtain ⟨c, hc, hvisited, hroot, hclose⟩ := close_inLine houter s.ctx
      let around := frame.withEntry (frame.entry.addChild (s.frame.entry.finish s.frame.scope))
      have haround : around.entry.kind.isBlock = true := by
        rw [show around.entry.kind = frame.entry.kind from Entry.kind_addChild _ _]
        have hholds := hnested.2.1
        cases hkind : frame.entry.kind <;> simp_all [EntryKind.isBlock, EntryKind.holds]
      refine ⟨c, u, around, outer, hbelow c hc, hvisited, hroot, rfl, rfl, ?_⟩
      intro fs r line tokens hnext h
      have hstep : (s.reading r).step fs = .ok (s.close
          (s.ctx.inLine { u with pushedBack := true } tokens)) := by
        rw [step_of_leaf (s := s.reading r) (next_reading hfiles hline hnext h rfl) rfl hleaf,
          stepLeaf, hword]
        change ((s.ctx.inLine u tokens).pushBack >>= _) = _
        rw [pushBack_inLine rfl rfl]
        rfl
      rw [hclose] at hstep
      rw [readBlockLine_of_leaf (s := s.reading r) hleaf hstep,
        step_of_request (next_inLine rfl rfl) rfl hword haround rfl]
      rfl

/-- The state after a file has been opened. -/
def withFile (s : State) (name : String) (bytes : List UInt8) : State :=
  { s with ctx := s.ctx.withFile name bytes }

lemma reading_self (hfiles : s.ctx.files = stream :: below) : s.reading stream.lines = s := by
  have hctx : s.ctx.reading stream.lines = s.ctx := by
    rw [Context.reading, hfiles, List.modifyHead_cons, ← hfiles]
  rw [State.reading, hctx]

lemma writes_of_contrast {r r' : LineReader} (h : r.Contrast a b r') (hpath : IsBare path)
    (hblank : r.unread ≠ none → ∀ c ∈ path.getLast?, Text.isBlank c = false)
    (ha : kind.Writes path a) (hb : kind.Writes path b) :
    ∃ line line' lines, lines.file = r.file ∧ r.next = .ok (some line, lines) ∧
      r'.next = .ok (some line', lines) ∧ kind.Writes path line ∧ kind.Writes path line' := by
  obtain ⟨lines, hfile, ⟨hnext, hnext'⟩ | ⟨hunread, hnext, hnext'⟩⟩ := h.next
  · exact ⟨a, b, lines, hfile, hnext, hnext', ha, hb⟩
  · exact ⟨_, _, lines, hfile, hnext, hnext', ha.raw hpath (hblank hunread),
      hb.raw hpath (hblank hunread)⟩

/-- An inclusion directive that is next in a state of a run has the same effect whether its path is
in quotes or not. It fails with the same fault, or the same state comes next: of the line only its
end is left, the same findings have been reported, and the file with the same name has been opened,
if any. If the line has been put back, its path must not end in a blank. -/
theorem readBlockLine_of_writes {fs' : FileSystem} {s' : State}
    (h : s.Contrast fs fs' settings stream below a b s') (hpath : IsBare path)
    (hblank : stream.lines.unread ≠ none → ∀ c ∈ path.getLast?, Text.isBlank c = false)
    (ha : kind.Writes path a) (hb : kind.Writes path b) :
    (∃ fault, s.readBlockLine fs = .error fault ∧ s'.readBlockLine fs' = .error fault) ∨
      ∃ t including, including.file = stream.file ∧
        including.upcoming = [⟨.lineEnd, including.linenr⟩] ∧
          t.ctx.files = including :: below ∧ t.ctx.visited = s.ctx.visited ∧
            (s.readBlockLine fs = .ok (.running t) ∧ s'.readBlockLine fs' = .ok (.running t) ∨
              ∃ name bytes bytes', fs.look (Path.join s.ctx.root name) = .file bytes ∧
                fs'.look (Path.join s.ctx.root name) = .file bytes' ∧
                  s.readBlockLine fs = .ok (.running (t.withFile name bytes)) ∧
                    s'.readBlockLine fs' = .ok (.running (t.withFile name bytes'))) := by
  obtain ⟨r, hcontrast, rfl⟩ := h.lines
  obtain ⟨line, line', lines, hfile, hnext, hnext', hline, hline'⟩ :=
    writes_of_contrast hcontrast hpath hblank ha hb
  obtain ⟨c, u, frame, outer, hbelow, hvisited, hroot, hu, hback, hread⟩ :=
    readBlockLine_reading h.reachable h.files h.between kind lines
  obtain ⟨tokens, htokens, hdigits, hpathA⟩ := SourceKind.readPath_of_writes hpath hline u.linenr
  obtain ⟨tokens', htokens', hdigits', hpathB⟩ :=
    SourceKind.readPath_of_writes hpath hline' u.linenr
  have hreadA := hread fs _ line tokens hnext htokens
  have hreadB := hread fs' r line' tokens' hnext' htokens'
  rw [readSource_inLine hback hdigits hpathA] at hreadA
  rw [readSource_inLine hback hdigits' hpathB] at hreadB
  rw [reading_self h.files] at hreadA
  -- Both directives follow the same path in the same context.
  let including := u.stopAt { token := ⟨.lineEnd, u.linenr⟩, rest := [] }
  have hfollows :=
    follows_follow h.alike (c.setCurrent including) kind u.location (.ofList path, [])
  have hfiles : (c.setCurrent including).files = including :: below :=
    congrArg (including :: ·) hbelow
  generalize hx : (c.setCurrent including).follow fs kind u.location (.ofList path, []) = x
    at hfollows
  generalize hy : (c.setCurrent including).follow fs' kind u.location (.ofList path, []) = y
    at hfollows
  let goOn : Context → Except Fault Progress := fun ctx => .ok (.running { ctx, frame, outer })
  have hleft : s.readBlockLine fs = x >>= goOn := hreadA.trans (congrArg (· >>= goOn) hx)
  have hright : (s.reading r).readBlockLine fs' = y >>= goOn :=
    hreadB.trans (congrArg (· >>= goOn) hy)
  have hupcoming : including.upcoming = [⟨.lineEnd, u.linenr⟩] := TokenStream.upcoming_stopAt _ _
  cases hfollows with
  | fault fault => exact .inl ⟨fault, hleft, hright⟩
  | @missing ctx hsame hsame' =>
    exact .inr ⟨{ ctx, frame, outer }, including, hu.trans hfile, hupcoming, hsame.trans hfiles,
      hsame'.trans hvisited, .inl ⟨hleft, hright⟩⟩
  | @opened ctx name bytes bytes' hsame hsame' hlook hlook' =>
    have hroot' : (c.setCurrent including).root = s.ctx.root := hroot
    rw [hroot'] at hlook hlook'
    exact .inr ⟨{ ctx, frame, outer }, including, hu.trans hfile, hupcoming, hsame.trans hfiles,
      hsame'.trans hvisited, .inr ⟨name, bytes, bytes', hlook, hlook', hleft, hright⟩⟩

end State

/-- A line behind a help text, beside a file `L`. -/
def behindHelp (line : String) : FileSystem :=
  (Snapshot.write { files := [(["L".toList], "config B\n".toUTF8.toList)] } "K"
    ("config A\n help\n  text\n" ++ line ++ "\n").toUTF8.toList).toFileSystem

def State.after? (fs : FileSystem) : Nat → State → Option State
  | 0, s => some s
  | n + 1, s => ((s.step fs).toOption.bind Progress.state?).bind (State.after? fs n)

lemma State.reachable_of_after? {fs : FileSystem} {settings : Settings} {n : Nat} {s s' : State}
    (hs : Reachable fs settings s) (h : s.after? fs n = some s') : Reachable fs settings s' := by
  induction n generalizing s with
  | zero =>
    cases h
    exact hs
  | succ n ih =>
    obtain ⟨next, hstep, h⟩ := Option.bind_eq_some_iff.1 h
    exact ih (.step hs (State.step_of_state? hstep)) h

/-- The state in which the line behind the help text has been put back. -/
def State.atReturned? (line : String) : Option State :=
  ((Settings.start (behindHelp line) { root := "", file := "K" }).toOption).bind
    (·.after? (behindHelp line) 3)

def Frame.parts (f : Frame) : Entry × List Condition × Nat × Bool :=
  (f.entry, f.scope, f.depth, f.isTop)

lemma Frame.parts_injective : Function.Injective Frame.parts := by
  rintro ⟨e, scope, depth, isTop⟩ ⟨e', scope', depth', isTop'⟩ h
  cases h
  rfl

/-- The line has been put back in the top-level file, and in its place the other state has the other
line. -/
structure State.ReturnedBeside (a b : List Char) (s s' : State) (stream : TokenStream) : Prop where
  files : s.ctx.files = [stream]
  between : stream.upcoming = []
  unread : stream.lines.unread = some ⟨Line.raw a, 1⟩
  ctx : s'.ctx = s.ctx.reading { stream.lines with unread := some ⟨Line.raw b, 1⟩ }
  frames : (s'.frame :: s'.outer).map Frame.parts = (s.frame :: s.outer).map Frame.parts

instance (a b : List Char) (s s' : State) (stream : TokenStream) :
    Decidable (s.ReturnedBeside a b s' stream) :=
  decidable_of_iff (s.ctx.files = [stream] ∧ stream.upcoming = [] ∧
      stream.lines.unread = some ⟨Line.raw a, 1⟩ ∧
      s'.ctx = s.ctx.reading { stream.lines with unread := some ⟨Line.raw b, 1⟩ } ∧
      (s'.frame :: s'.outer).map Frame.parts = (s.frame :: s.outer).map Frame.parts)
    ⟨fun ⟨h₁, h₂, h₃, h₄, h₅⟩ => ⟨h₁, h₂, h₃, h₄, h₅⟩,
      fun ⟨h₁, h₂, h₃, h₄, h₅⟩ => ⟨h₁, h₂, h₃, h₄, h₅⟩⟩

lemma State.contrast_of_returnedBeside {a b : String} {s s' : State} {stream : TokenStream}
    (hs : State.atReturned? a = some s) (hs' : State.atReturned? b = some s')
    (h : s.ReturnedBeside a.toList b.toList s' stream) :
    s.Contrast (behindHelp a) (behindHelp b) { root := "", file := "K" } stream [] a.toList b.toList
      s' := by
  obtain ⟨first, hstart, hs⟩ := Option.bind_eq_some_iff.1 hs
  obtain ⟨first', hstart', hs'⟩ := Option.bind_eq_some_iff.1 hs'
  have hframes := List.map_injective_iff.2 Frame.parts_injective h.frames
  have hsame : s' = s.reading { stream.lines with unread := some ⟨Line.raw b.toList, 1⟩ } := by
    obtain ⟨ctx, frame, outer⟩ := s'
    cases h.ctx
    cases hframes
    rfl
  exact
    { alike := fun path => (Snapshot.look_write _ _ _ _ _).imp_right fun hlook =>
        ⟨_, _, hlook.1, hlook.2⟩
      reachable := State.reachable_of_after? (.start (toOption_eq_some.1 hstart)) hs
      reachable' := State.reachable_of_after? (.start (toOption_eq_some.1 hstart')) hs'
      files := h.files
      between := h.between
      lines := ⟨_, LineReader.contrast_of_unread h.unread _, hsame⟩ }

/-- The names of the files that have been opened when the line has been read. -/
def State.visitedAfter? (fs : FileSystem) (s : State) : Option (List String) :=
  ((s.readBlockLine fs).toOption.bind Progress.state?).map (·.ctx.visited)

lemma State.visitedAfter?_eq_some {fs : FileSystem} {s : State} {names : List String}
    (h : s.visitedAfter? fs = some names) :
    ∃ t : State, s.readBlockLine fs = .ok (.running t) ∧ t.ctx.visited = names := by
  obtain ⟨t, ht, hnames⟩ := Option.map_eq_some_iff.1 h
  exact ⟨t, State.eq_running_of_state? ht, hnames⟩

lemma exists_of_any_any {α β : Type} {x : Option α} {y : Option β} {P : α → β → Prop}
    [∀ a b, Decidable (P a b)] (h : x.any (fun a => y.any fun b => P a b) = true) :
    ∃ a b, x = some a ∧ y = some b ∧ P a b := by
  obtain ⟨a, ha, h⟩ := (Option.any_eq_true _ _).1 h
  obtain ⟨b, hb, h⟩ := (Option.any_eq_true _ _).1 h
  exact ⟨a, b, ha, hb, of_decide_eq_true h⟩

theorem readBlockLine_of_writes_returned : ∃ (s s' : State) (stream : TokenStream) (t : State)
    (bytes : List UInt8),
    s.Contrast (behindHelp "source L") (behindHelp "source \"L\" # here")
        { root := "", file := "K" } stream [] "source L".toList "source \"L\" # here".toList s' ∧
      stream.lines.unread ≠ none ∧ t.ctx.visited = ["K"] ∧
        s.readBlockLine (behindHelp "source L") = .ok (.running (t.withFile "L" bytes)) ∧
          s'.readBlockLine (behindHelp "source \"L\" # here") =
            .ok (.running (t.withFile "L" bytes)) := by
  obtain ⟨s, s', hs, hs', hstream⟩ := exists_of_any_any
    (x := State.atReturned? "source L") (y := State.atReturned? "source \"L\" # here")
    (P := fun s s' => s.ctx.files.any fun stream =>
      s.ReturnedBeside "source L".toList "source \"L\" # here".toList s' stream) (by decide +kernel)
  have hafter : (State.atReturned? "source L").any (fun s => s.ctx.visited = ["K"] ∧
      s.ctx.root = "" ∧ s.visitedAfter? (behindHelp "source L") = some ["K", "L"]) = true := by
    decide +kernel
  rw [hs] at hafter
  obtain ⟨hvisited, hroot, hafter⟩ := of_decide_eq_true hafter
  obtain ⟨stream, -, hbeside⟩ := List.any_eq_true.1 hstream
  have hbeside := of_decide_eq_true hbeside
  have hcontrast := State.contrast_of_returnedBeside hs hs' hbeside
  obtain ⟨next, hread, hopened⟩ := State.visitedAfter?_eq_some hafter
  have hbare : IsBare "L".toList := ⟨by decide, by decide, by decide +kernel⟩
  have hlast : ∀ c ∈ "L".toList.getLast?, Text.isBlank c = false := by
    intro c hc
    obtain rfl : 'L' = c := Option.some.inj hc
    decide +kernel
  have hwords : SourceKind.Writes {} "L".toList "source L".toList :=
    @SourceKind.Writes.bare {} _ [] [' '] [] (by decide) (by decide) (by decide) Lexeme.scan_nil
  have hquoted : SourceKind.Writes {} "L".toList "source \"L\" # here".toList :=
    @SourceKind.Writes.quoted {} _ [] [' '] " # here".toList '"' (by decide) (by decide) (by decide)
      (by decide +kernel) (by decide)
  obtain ⟨fault, hfault, -⟩ | ⟨t, including, -, -, -, ht, ⟨hsame, -⟩ |
      ⟨name, bytes, bytes', hlook, hlook', hleft, hright⟩⟩ :=
    State.readBlockLine_of_writes hcontrast hbare (fun _ => hlast) hwords hquoted
  · rw [hread] at hfault
    cases hfault
  · rw [hread] at hsame
    cases hsame
    rw [ht, hvisited] at hopened
    cases hopened
  · rw [hread] at hleft
    cases hleft
    have hname : t.ctx.visited ++ [name] = ["K", "L"] := hopened
    rw [ht, hvisited] at hname
    cases hname
    rw [hroot] at hlook hlook'
    have hsame : (behindHelp "source L").look (Path.join "" "L") =
        (behindHelp "source \"L\" # here").look (Path.join "" "L") := by decide +kernel
    cases hlook.symm.trans (hsame.trans hlook')
    exact ⟨s, s', stream, t, bytes, hcontrast, by simp [hbeside.unread], ht.trans hvisited, hread,
      hright⟩

/-- Without quotes the path loses the blank at its end, and another file is opened. -/
theorem readBlockLine_ne_of_blank_end : ∃ (s s' : State) (stream : TokenStream) (t t' : State),
    s.Contrast (behindHelp "source L\u00a0") (behindHelp "source \"L\u00a0\"")
        { root := "", file := "K" } stream [] "source L\u00a0".toList
        "source \"L\u00a0\"".toList s' ∧
      IsBare "L\u00a0".toList ∧ SourceKind.Writes {} "L\u00a0".toList "source L\u00a0".toList ∧
        SourceKind.Writes {} "L\u00a0".toList "source \"L\u00a0\"".toList ∧
          s.readBlockLine (behindHelp "source L\u00a0") = .ok (.running t) ∧
            t.ctx.visited = ["K", "L"] ∧
              s'.readBlockLine (behindHelp "source \"L\u00a0\"") = .ok (.running t') ∧
                t'.ctx.visited = ["K"] := by
  obtain ⟨s, s', hs, hs', hstream⟩ := exists_of_any_any
    (x := State.atReturned? "source L\u00a0") (y := State.atReturned? "source \"L\u00a0\"")
    (P := fun s s' => s.ctx.files.any fun stream =>
      s.ReturnedBeside "source L\u00a0".toList "source \"L\u00a0\"".toList s' stream)
    (by decide +kernel)
  have hleft : (State.atReturned? "source L\u00a0").any (fun s =>
      s.visitedAfter? (behindHelp "source L\u00a0") = some ["K", "L"]) = true := by
    decide +kernel
  have hright : (State.atReturned? "source \"L\u00a0\"").any (fun s =>
      s.visitedAfter? (behindHelp "source \"L\u00a0\"") = some ["K"]) = true := by
    decide +kernel
  rw [hs] at hleft
  rw [hs'] at hright
  obtain ⟨stream, -, hbeside⟩ := List.any_eq_true.1 hstream
  obtain ⟨t, hread, hvisited⟩ := State.visitedAfter?_eq_some (of_decide_eq_true hleft)
  obtain ⟨t', hread', hvisited'⟩ := State.visitedAfter?_eq_some (of_decide_eq_true hright)
  have hbare : IsBare "L\u00a0".toList := ⟨by decide, by decide, by decide +kernel⟩
  have hwords : SourceKind.Writes {} "L\u00a0".toList "source L\u00a0".toList :=
    @SourceKind.Writes.bare {} _ [] [' '] [] (by decide) (by decide) (by decide) Lexeme.scan_nil
  have hquoted : SourceKind.Writes {} "L\u00a0".toList "source \"L\u00a0\"".toList :=
    @SourceKind.Writes.quoted {} _ [] [' '] [] '"' (by decide) (by decide) (by decide)
      Lexeme.scan_nil (by decide)
  exact ⟨s, s', stream, t, t', State.contrast_of_returnedBeside hs hs' (of_decide_eq_true hbeside),
    hbare, hwords, hquoted, hread, hvisited, hread', hvisited'⟩

end Kconfig
