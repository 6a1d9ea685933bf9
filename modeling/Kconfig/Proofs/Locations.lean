import Kconfig.FileSystem.Snapshot
import Kconfig.Proofs.Forecast
import Kconfig.Proofs.Sessions

/-!
# Locations

The location of an entry is that of its keyword: the file that the keyword is read from, and the
number of the line it stands in. Each step that opens an entry takes the location from the stream
right after the keyword, and nothing changes it later.
-/

namespace Kconfig

/-- The run reaches the state after the events. -/
inductive Past (fs : FileSystem) (settings : Settings) : List Event → State → Prop where
  | start {s : State} (h : settings.start fs = .ok s) : Past fs settings [] s
  | step {events : List Event} {s s' : State} (h : Past fs settings events s)
    (hs : s.step fs = .ok (.running s')) : Past fs settings (events ++ s.events (.running s')) s'

lemma Past.reachable {fs : FileSystem} {settings : Settings} {events : List Event} {s : State}
    (h : Past fs settings events s) : Reachable fs settings s := by
  induction h with
  | start h => exact .start h
  | step _ hs ih => exact ih.step hs

namespace State

open Context

variable {fs : FileSystem} {settings : Settings} {root : String} {s : State} {ctx : Context}
  {token : Token} {p : Progress} {events : List Event} {opened : Frame × Context}

lemma effect_header (h : Effect s events p) :
    events.filterMap Event.header? = [] ∨ ∃ opened, p = s.descend opened ∧
      events.filterMap Event.header? = [opened.1.entry.header] := by
  cases h with
  | @header ctx frame header hholds hentry hframe htop hscope =>
    refine .inr ⟨(frame, ctx), rfl, ?_⟩
    rw [hentry, Header.header_entry]
    rfl
  | @headerWith ctx frame header environment site slips d hholds hentry hframe htop hscope =>
    refine .inr ⟨(frame, ctx), rfl, ?_⟩
    rw [hentry, (Directive.shows_apply environment site slips d _).header, Header.header_entry]
    rfl
  | _ => exact .inl rfl

lemma history_of_error {fault : Fault} (h : s.step fs = .error fault) : s.history fs = [] := by
  rw [history]
  split <;> simp_all

lemma exists_opening (s : State) :
    ∀ {events : List Event}, Past fs settings events s → ∀ {j : Nat} {header : Header},
      ((s.history fs).filterMap Event.header?)[j]? = some header →
        ∃ before last opened, Past fs settings before last ∧
          (before.filterMap Event.header?).length = (events.filterMap Event.header?).length + j ∧
            last.step fs = .ok (last.descend opened) ∧ opened.1.entry.header = header := by
  induction s using step_induction fs with
  | next s ih =>
    intro events hpast j header hheader
    cases hstep : s.step fs with
    | error fault =>
      rw [history_of_error hstep] at hheader
      cases hheader
    | ok p =>
      rcases effect_header (step_effect hstep) with hnone | ⟨opened, rfl, hone⟩
      · cases p with
        | finished e ctx =>
          rw [history_of_finished hstep, hnone] at hheader
          cases hheader
        | running s' =>
          rw [history_of_running hstep, List.filterMap_append, hnone] at hheader
          have hrec := ih s' hstep (hpast.step hstep) hheader
          rwa [List.filterMap_append, hnone, List.append_nil] at hrec
      · rw [history_of_running hstep, List.filterMap_append] at hheader
        change (List.filterMap Event.header? (s.events (s.descend opened)) ++ _)[j]? = _ at hheader
        rw [hone] at hheader
        cases j with
        | zero =>
          cases hheader
          exact ⟨events, s, opened, hpast, rfl, hstep, rfl⟩
        | succ j =>
          obtain ⟨before, last, opened', hlast, hlength, hopens, hheader'⟩ :=
            ih _ hstep (hpast.step hstep) hheader
          refine ⟨before, last, opened', hlast, ?_, hopens, hheader'⟩
          change _ =
            (List.filterMap Event.header? (events ++ s.events (s.descend opened))).length + j
            at hlength
          rw [hlength, List.filterMap_append, hone, List.length_append, List.length_singleton]
          omega

lemma takes_descend (h : Takes fs s token ctx p) (hp : p = s.descend opened) :
    ∃ word keyword opening, token.lexeme = .word word ∧ BlockKeyword.ofWord? word = some keyword ∧
      keyword.opening? = some opening ∧ ctx.openFrame opening = .ok opened := by
  have hnot : ∀ ctx', (s.close ctx') ≠ s.descend opened := by
    intro ctx' heq
    unfold close descend at heq
    dsimp only at heq
    split at heq
    · cases heq
    · rename_i frame outer houter
      rw [houter] at heq
      simp only [Progress.running.injEq, State.mk.injEq] at heq
      have hlength := congrArg List.length heq.2.2
      simp only [List.length_cons] at hlength
      omega
  cases h with
  | @header word keyword opening opened' hlex hword hopening hholds h =>
    have heq : opened' = opened := by
      simp only [descend, Progress.running.injEq, State.mk.injEq] at hp
      exact Prod.ext hp.2.1 hp.1
    exact ⟨word, keyword, opening, hlex, hword, hopening, heq ▸ h⟩
  | blockEnd => exact absurd hp (hnot _)
  | leafEnd => exact absurd hp (hnot _)
  | topEnd => exact absurd hp (hnot _)
  | _ => simp [goOn, update, descend] at hp

lemma openFrame_header {keyword : BlockKeyword} {opening : Opening}
    (hopening : keyword.opening? = some opening) (h : ctx.openFrame opening = .ok opened) :
    opened.1.entry.kind = opening.kind ∧ ctx.location = .ok opened.1.entry.head.location := by
  cases opening with
  | config isMenu =>
    obtain ⟨location, hlocation, h⟩ := bind_eq_ok.1 h
    obtain ⟨⟨token, ctx₁⟩, -, h⟩ := bind_eq_ok.1 h
    dsimp only at h
    split at h
    · cases h
    · cases pure_eq_ok.1 h
      exact ⟨rfl, hlocation⟩
  | choice =>
    obtain ⟨location, hlocation, h⟩ := bind_eq_ok.1 h
    obtain ⟨⟨token, ctx₁⟩, -, h⟩ := bind_eq_ok.1 h
    dsimp only at h
    split at h
    · obtain ⟨ctx₂, -, h⟩ := bind_eq_ok.1 h
      cases pure_eq_ok.1 h
      exact ⟨rfl, hlocation⟩
    · obtain ⟨ctx₂, -, h⟩ := bind_eq_ok.1 h
      cases pure_eq_ok.1 h
      exact ⟨rfl, hlocation⟩
  | comment =>
    obtain ⟨location, hlocation, h⟩ := bind_eq_ok.1 h
    obtain ⟨⟨e, ctx₁⟩, hread, h⟩ := bind_eq_ok.1 h
    cases pure_eq_ok.1 h
    obtain ⟨d, site, slips, -, rfl, -⟩ := readDirective_eq_ok hread
    have hheader := (Directive.shows_apply ctx.environment site slips d
      (.comment { head := { location } })).header
    exact ⟨congrArg Header.kind hheader,
      hlocation.trans (congrArg (Except.ok ·.location) hheader).symm⟩
  | menu =>
    obtain ⟨location, hlocation, h⟩ := bind_eq_ok.1 h
    obtain ⟨⟨e, ctx₁⟩, hread, h⟩ := bind_eq_ok.1 h
    cases pure_eq_ok.1 h
    obtain ⟨d, site, slips, -, rfl, -⟩ := readDirective_eq_ok hread
    have hheader := (Directive.shows_apply ctx.environment site slips d
      (.menu { location } none [])).header
    exact ⟨congrArg Header.kind hheader,
      hlocation.trans (congrArg (Except.ok ·.location) hheader).symm⟩
  | top => cases keyword <;> cases hopening

/-- The next token is a keyword for an entry of the given kind. It is read from the file, and comes
from the line with the index `k` of it. -/
def ReadsKeyword (fs : FileSystem) (root : String) (s : State) (kind : EntryKind) (file : String)
    (bytes : List UInt8) (k : Nat) : Prop :=
  ∃ token ctx stream word keyword opening,
    s.ctx.next = .ok (token, ctx) ∧ ctx.current = .ok stream ∧ stream.file = file ∧
      fs.look (Path.join root file) = .file bytes ∧
        token.lexeme = .word word ∧ BlockKeyword.ofWord? word = some keyword ∧
          keyword.opening? = some opening ∧ opening.kind = kind ∧
            stream.present (Line.ofBytes bytes).1 = k ∧ token.From (Line.ofBytes bytes).1 k

lemma readsKeyword_of_step (hreach : Reachable fs settings s)
    (hstep : s.step fs = .ok (s.descend opened)) :
    ∃ file bytes k, s.ReadsKeyword fs settings.root opened.1.entry.kind file bytes k ∧
      opened.1.entry.head.location = ⟨file, Line.start (Line.ofBytes bytes).1 k⟩ := by
  obtain ⟨token, ctx, hnext, htakes⟩ := takes_of_step hstep
  obtain ⟨word, keyword, opening, hlex, hword, hopening, hframe⟩ := takes_descend htakes rfl
  obtain ⟨hkind, hlocation⟩ := openFrame_header hopening hframe
  have hkeeps := hreach.keeps (TokenStream.stable_seatedIn fs settings.root) fun name bytes hlook =>
    ⟨bytes, hlook, [], _, rfl, .of_nil (LineReader.between_ofBytes name bytes) rfl⟩
  obtain ⟨stream, stream', below, hfiles, hnext', hfiles', -⟩ := next_eq_ok hnext
  obtain ⟨bytes, hlook, hseated⟩ := hkeeps.files stream (by rw [hfiles]; exact List.mem_cons_self)
  have hend : token.lexeme ≠ .fileEnd := by
    rw [hlex]
    exact Lexeme.noConfusion
  obtain ⟨hlinenr, hfrom⟩ := hseated.next hnext' hend
  have hcurrent : ctx.current = .ok stream' := by rw [Context.current, hfiles']
  have hfile : stream'.file = stream.file := (TokenStream.next_after hnext').1.1
  rw [← hfile] at hlook
  refine ⟨stream'.file, bytes, _, ⟨token, ctx, stream', word, keyword, opening, hnext, hcurrent,
    rfl, hlook, hlex, hword, hopening, hkind.symm, rfl, hfrom⟩, ?_⟩
  obtain ⟨line, -, hstart, -⟩ := hfrom hend
  rw [Context.location, hcurrent] at hlocation
  have hplace : stream'.location = opened.1.entry.head.location := Except.ok.inj hlocation
  rw [← hplace, TokenStream.location, ← hlinenr, hstart]

end State

/-- The `i`-th entry of a tree is opened in the `i`-th step that takes a header. There its keyword
is read, and its location is the file and the first physical line of the line that the keyword comes
from. In the same way every token that a session delivers carries the number of the first physical
line of the line it comes from. -/
theorem entries_and_tokens_located (fs : FileSystem) (settings : Settings) :
    (∀ tree, Tree.parse fs settings = .ok tree → ∀ i e, tree.nodes[i]? = some e →
      ∃ before s opened file bytes k, Past fs settings before s ∧
        (before.filterMap Event.header?).length = i ∧ s.step fs = .ok (s.descend opened) ∧
          opened.1.entry.header = e.header ∧
            s.ReadsKeyword fs settings.root e.kind file bytes k ∧
              e.head.location = ⟨file, Line.start (Line.ofBytes bytes).1 k⟩) ∧
      ∀ file bytes requests, ∀ d ∈ (Session.ofBytes file bytes).deliveries requests,
        d.1.From (Line.ofBytes bytes).1 d.2 := by
  constructor
  · intro tree hparse i e he
    have hheaders := congrArg (fun headers => headers[i]?) (Tree.map_header_of_parse hparse)
    rw [List.getElem?_map, he, Option.map_some] at hheaders
    obtain ⟨s₀, -, -, hstart, -, -⟩ := Tree.parse_eq_ok.1 hparse
    rw [Settings.history, hstart] at hheaders
    obtain ⟨before, s, opened, hpast, hlength, hstep, hheader⟩ :=
      State.exists_opening s₀ (.start hstart) hheaders.symm
    obtain ⟨file, bytes, k, hkeyword, hlocation⟩ :=
      State.readsKeyword_of_step hpast.reachable hstep
    have hkind : opened.1.entry.kind = e.kind := congrArg Header.kind hheader
    have hplace : opened.1.entry.head.location = e.head.location :=
      congrArg Header.location hheader
    rw [hkind] at hkeyword
    rw [hplace] at hlocation
    exact ⟨before, s, opened, file, bytes, k, hpast, hlength.trans (Nat.zero_add i), hstep, hheader,
      hkeyword, hlocation⟩
  · exact fun file bytes requests =>
      Session.from_of_mem_deliveries (Session.at_ofBytes file bytes) requests

/-- A file with a line that is joined, a help text whose end is read twice, and another file. -/
def spread : Snapshot where
  files := [
    (["K".toList], ("# first\\\n second\nconfig A\n bool \\\n  \"a\"\n help\n  text\n\n" ++
      "menu \"m\"\nsource \"L\"\ncomment \"c\"\nendmenu\n").toUTF8.toList),
    (["L".toList], "\n\\\nchoice\nendchoice\n".toUTF8.toList)]

/-- A file with a joined line, and a request for its last line after that has been read raw. -/
def pages : List UInt8 :=
  "a\\\n\nhelp\n text\nb\n".toUTF8.toList

def turning : List Request :=
  [.next, .pushBack, .next, .discardLine, .next, .discardLine, .readLine, .readLine, .unreadLine,
    .next]

theorem entries_and_tokens_located_spread :
    (∃ tree e, Tree.parse spread.toFileSystem { root := "", file := "K" } = .ok tree ∧
      tree.nodes.map (·.head.location) = [⟨"K", 3⟩, ⟨"K", 9⟩, ⟨"L", 2⟩, ⟨"K", 11⟩] ∧
        tree.nodes[2]? = some e ∧ ∃ (s : State) (bytes : List UInt8) (k : Nat),
          s.ReadsKeyword spread.toFileSystem "" e.kind "L" bytes k ∧
            Line.start (Line.ofBytes bytes).1 k = 2) ∧
      (Session.ofBytes "P" pages).deliveries turning =
          [(⟨.word "a", 1⟩, 0), (⟨.word "a", 1⟩, 0), (⟨.word "help", 3⟩, 1), (⟨.word "b", 5⟩, 3)] ∧
        Token.From (Line.ofBytes pages).1 3 ⟨.word "b", 5⟩ := by
  have hrun : (Tree.parseFor spread.toFileSystem { root := "", file := "K" } 40).any (fun tree =>
      tree.nodes.map (·.head.location) = [⟨"K", 3⟩, ⟨"K", 9⟩, ⟨"L", 2⟩, ⟨"K", 11⟩]) = true := by
    decide +kernel
  obtain ⟨tree, htree, hlocations⟩ := (Option.any_eq_true _ _).1 hrun
  have hlocations := of_decide_eq_true hlocations
  have hparse := Tree.parse_of_parseFor htree
  obtain ⟨hentries, htokens⟩ :=
    entries_and_tokens_located spread.toFileSystem { root := "", file := "K" }
  have hdeliveries : (Session.ofBytes "P" pages).deliveries turning =
      [(⟨.word "a", 1⟩, 0), (⟨.word "a", 1⟩, 0), (⟨.word "help", 3⟩, 1), (⟨.word "b", 5⟩, 3)] := by
    decide +kernel
  constructor
  · have hlength : 2 < tree.nodes.length := by
      rw [← List.length_map (·.head.location), hlocations]
      decide
    have hnode := List.getElem?_eq_getElem hlength
    obtain ⟨-, s, -, file, bytes, k, -, -, -, -, hkeyword, hlocation⟩ :=
      hentries tree hparse 2 _ hnode
    have hplace := congrArg (fun locations => locations[2]?) hlocations
    rw [List.getElem?_map, hnode, Option.map_some, hlocation] at hplace
    obtain ⟨rfl, hstart⟩ := Location.mk.inj (Option.some.inj hplace)
    exact ⟨tree, _, hparse, hlocations, hnode, s, bytes, k, hkeyword, hstart⟩
  · refine ⟨hdeliveries, htokens "P" pages turning (⟨.word "b", 5⟩, 3) ?_⟩
    rw [hdeliveries]
    exact List.mem_of_getLast? rfl

end Kconfig
