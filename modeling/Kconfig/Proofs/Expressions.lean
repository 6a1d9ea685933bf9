import Kconfig.Proofs.Conditions
import Kconfig.Proofs.RawLines
import Kconfig.Proofs.Requests
import Kconfig.Proofs.Spelling
import Kconfig.Proofs.Streams

/-!
# How expressions are read

An expression is read token by token. `Expression.Takes` has one case for each thing that a token,
or a pair of tokens, can do to what has been read so far; everything else ends the expression. The
operators `!=`, `<=` and `>=` need no case of their own: they leave what their two characters leave
one after the other.

An expression goes up to the first token that cannot belong to it. It is read if all parentheses are
closed there, and no other token is touched.
-/

namespace Kconfig

namespace Expression

/-- What one or two lexemes do to the parts of an expression that have been read, and the slip that
this is. -/
inductive Takes :
    List Pieces → Pieces → List Lexeme → List Pieces → Pieces → List Slip → Prop where
  | word {outer : List Pieces} {p : Pieces} {lexeme : Lexeme} {text : String}
    (h : lexeme.wordText? = some text) (hif : lexeme ≠ .word "if") :
    Takes outer p [lexeme] outer (p.operand text.toList) []
  | quoted {outer : List Pieces} {p : Pieces} {quote : Char} {text : String} :
    Takes outer p [.quoted quote text] outer (p.operand ('"' :: text.toList ++ ['"'])) []
  | opening {outer : List Pieces} {p : Pieces} : Takes outer p [.char '('] (p :: outer) {} []
  | closing {outer : List Pieces} {before p : Pieces} :
    Takes (before :: outer) p [.char ')'] outer (before.operand ('(' :: p.result ++ [')'])) []
  | mark {outer : List Pieces} {p : Pieces} {c : Char} (h : c ∈ ['=', '!', '<', '>']) :
    Takes outer p [.char c] outer (p.operator [c]) []
  | pair {outer : List Pieces} {p : Pieces} {c : Char} (h : c = '&' ∨ c = '|') :
    Takes outer p [.char c, .char c] outer (p.operator [' ', c, c, ' ']) []
  | doubled {outer : List Pieces} {p : Pieces} {c : Char} (h : c = '&' ∨ c = '|') :
    Takes outer p [.char c] outer (p.operator [' ', c, c, ' ']) [.doubled c]
  | dangling {outer : List Pieces} {p : Pieces} {c : Char} (h : c = '&' ∨ c = '|') :
    Takes outer p [.char c] outer p [.dangling c]

/-- A token that belongs to an expression is taken, also where no other follows. -/
lemma exists_takes (outer : List Pieces) (p : Pieces) {lexeme : Lexeme}
    (h : stops outer.length lexeme = false) :
    ∃ outer' p' slips, Takes outer p [lexeme] outer' p' slips := by
  cases lexeme with
  | word text => exact ⟨_, _, _, .word rfl (by simpa [stops] using h)⟩
  | number text value => exact ⟨_, _, _, .word rfl (by simp)⟩
  | quoted quote text => exact ⟨_, _, _, .quoted⟩
  | char c =>
    simp only [stops, decide_eq_false_iff_not, not_or, not_not] at h
    obtain ⟨hmark, hclosing⟩ := h
    simp only [marks, List.mem_cons, List.not_mem_nil, or_false] at hmark
    rcases hmark with rfl | rfl | rfl | rfl | rfl | rfl | rfl | rfl
    · exact ⟨_, _, _, .opening⟩
    · cases outer with
      | nil => exact absurd ⟨rfl, rfl⟩ hclosing
      | cons before outer => exact ⟨_, _, _, .closing⟩
    · exact ⟨_, _, _, .mark (by simp)⟩
    · exact ⟨_, _, _, .mark (by simp)⟩
    · exact ⟨_, _, _, .mark (by simp)⟩
    · exact ⟨_, _, _, .mark (by simp)⟩
    · exact ⟨_, _, _, .dangling (.inl rfl)⟩
    · exact ⟨_, _, _, .dangling (.inr rfl)⟩
  | lineEnd => cases h
  | fileEnd => cases h

lemma foldr_withSlip_error (slips : List Slip) (failure : ReadFailure) :
    slips.foldr withSlip (.error failure) = .error failure := by
  induction slips with
  | nil => rfl
  | cons slip slips ih =>
    rw [List.foldr_cons, ih]
    rfl

/-- A statement about readings of expressions holds if it holds where expressions stop or no tokens
are left, and is kept when one or two tokens more are taken in front. -/
theorem reading_induction
    {motive : List Pieces → Pieces → List Token → Except ReadFailure (Reading String) → Prop}
    (stop : ∀ outer p token rest, stops outer.length token.lexeme = true →
      motive outer p (token :: rest) (stopAt outer p (obstacle token.lexeme) { token, rest }))
    (usedUp : ∀ outer p, motive outer p [] (.error .usedUp))
    (step : ∀ outer p taken rest outer' p' slips result,
      Takes outer p (taken.map Token.lexeme) outer' p' slips → motive outer' p' rest result →
        motive outer p (taken ++ rest) (slips.foldr withSlip result))
    (outer : List Pieces) (p : Pieces) (tokens : List Token) :
    motive outer p tokens (readFrom outer p tokens) := by
  have one : ∀ {outer p token rest outer' p' result} (slips : List Slip),
      Takes outer p [token.lexeme] outer' p' slips → motive outer' p' rest result →
        motive outer p (token :: rest) (slips.foldr withSlip result) :=
    fun slips htakes hrest => step _ _ [_] _ _ _ slips _ htakes hrest
  fun_induction readFrom outer p tokens with
  | case1 outer p => exact usedUp outer p
  | case2 outer p last hstops => exact stop outer p last [] hstops
  | case3 outer p last hstops =>
    obtain ⟨outer', p', slips, htakes⟩ := exists_takes outer p (Bool.eq_false_iff.2 hstops)
    have hlast := one slips htakes (usedUp outer' p')
    rwa [foldr_withSlip_error] at hlast
  | case4 outer p token next rest hlexeme =>
    have hstop := stop outer p token (next :: rest) (by rw [hlexeme]; rfl)
    rwa [hlexeme] at hstop
  | case5 outer p token next rest hlexeme =>
    have hstop := stop outer p token (next :: rest) (by rw [hlexeme]; rfl)
    rwa [hlexeme] at hstop
  | case6 outer p token next rest hlexeme =>
    have hstop := stop outer p token (next :: rest) (by rw [hlexeme]; rfl)
    rwa [hlexeme] at hstop
  | case7 outer p token next rest text hlexeme hif ih =>
    exact one [] (by rw [hlexeme]; exact .word rfl (by simpa)) ih
  | case8 outer p token next rest text value hlexeme ih =>
    exact one [] (by rw [hlexeme]; exact .word rfl (by simp)) ih
  | case9 outer p token next rest quote text hlexeme ih =>
    exact one [] (by rw [hlexeme]; exact .quoted) ih
  | case10 outer p token next rest hlexeme ih =>
    exact one [] (by rw [hlexeme]; exact .opening) ih
  | case11 p token next rest hlexeme hne => exact stop [] p token _ (by rw [hlexeme]; rfl)
  | case12 p token next rest before outer hlexeme hne ih =>
    exact one [] (by rw [hlexeme]; exact .closing) ih
  | case13 outer p token next rest hlexeme h₁ h₂ ih =>
    exact one [] (by rw [hlexeme]; exact .mark (by simp)) ih
  | case14 outer p token next rest c hlexeme h₁ h₂ h₃ hc hnext ih =>
    have hboth : (p.operator [c]).operator ['='] = p.operator [c, '='] := by
      simp [Pieces.operator]
    refine one [] (by rw [hlexeme]; exact .mark (by simp [hc])) ?_
    refine one [] (by rw [hnext]; exact .mark (by simp)) ?_
    rwa [hboth]
  | case15 outer p token next rest c hlexeme h₁ h₂ h₃ hc hnext ih =>
    exact one [] (by rw [hlexeme]; exact .mark (by simp [hc])) ih
  | case16 outer p token next rest c hlexeme h₁ h₂ h₃ h₄ hc hnext ih =>
    refine step outer p [token, next] rest outer _ [] _ ?_ ih
    rw [List.map_cons, List.map_singleton, hlexeme, hnext]
    exact .pair hc
  | case17 outer p token next rest c hlexeme h₁ h₂ h₃ h₄ hc hnext hbegins ih =>
    exact one [.doubled c] (by rw [hlexeme]; exact .doubled hc) ih
  | case18 outer p token next rest c hlexeme h₁ h₂ h₃ h₄ hc hnext hbegins ih =>
    exact one [.dangling c] (by rw [hlexeme]; exact .dangling hc) ih
  | case19 outer p token next rest c hlexeme h₁ h₂ h₃ h₄ hc =>
    have hmarks : c ∉ marks := by simp_all [marks]
    have hstop := stop outer p token (next :: rest) (by rw [hlexeme]; simp [stops, hmarks])
    rw [hlexeme] at hstop ⊢
    exact hstop

/-- The number of open parentheses after a lexeme of an expression. -/
def depthAfter (depth : Nat) : Lexeme → Nat
  | .char '(' => depth + 1
  | .char ')' => depth - 1
  | _ => depth

/-- The number of open parentheses after lexemes of an expression. -/
def openAfter (depth : Nat) (lexemes : List Lexeme) : Nat :=
  lexemes.foldl depthAfter depth

/-- The first lexeme that cannot belong to an expression, in which `depth` parentheses are already
open, is `stop` after those in front of it. -/
def FirstStop (stop : Lexeme) : Nat → List Lexeme → Prop
  | depth, [] => stops depth stop = true
  | depth, lexeme :: front =>
    stops depth lexeme = false ∧ FirstStop stop (depthAfter depth lexeme) front

instance decidableFirstStop (stop : Lexeme) :
    (depth : Nat) → (front : List Lexeme) → Decidable (FirstStop stop depth front)
  | depth, [] => inferInstanceAs (Decidable (stops depth stop = true))
  | depth, lexeme :: front =>
    have := decidableFirstStop stop (depthAfter depth lexeme) front
    inferInstanceAs (Decidable (_ ∧ FirstStop stop (depthAfter depth lexeme) front))

/-- All of the lexemes belong to an expression in which `depth` parentheses are already open. -/
def Passes : Nat → List Lexeme → Prop
  | _, [] => True
  | depth, lexeme :: front => stops depth lexeme = false ∧ Passes (depthAfter depth lexeme) front

lemma passes_append {depth : Nat} {front later : List Lexeme} :
    Passes depth (front ++ later) ↔ Passes depth front ∧ Passes (openAfter depth front) later := by
  induction front generalizing depth with
  | nil => simp [Passes, openAfter]
  | cons lexeme front ih =>
    rw [List.cons_append, Passes, Passes, ih, and_assoc]
    rfl

lemma firstStop_iff {stop : Lexeme} {depth : Nat} {front : List Lexeme} :
    FirstStop stop depth front ↔
      Passes depth front ∧ stops (openAfter depth front) stop = true := by
  induction front generalizing depth with
  | nil => simp [FirstStop, Passes, openAfter]
  | cons lexeme front ih =>
    rw [FirstStop, Passes, ih, and_assoc]
    rfl

lemma FirstStop.not_passes {stop : Lexeme} {depth : Nat} {front lexemes : List Lexeme}
    (h : FirstStop stop depth front) (hbegins : front ++ [stop] <+: lexemes) :
    ¬Passes depth lexemes := by
  obtain ⟨later, rfl⟩ := hbegins
  intro hpasses
  rw [List.append_assoc] at hpasses
  have hstop := (passes_append.1 hpasses).2.1
  rw [(firstStop_iff.1 h).2] at hstop
  cases hstop

lemma passes_operator {c : Char} (hc : c ∈ ['=', '!', '<', '>', '&', '|']) (depth : Nat) :
    stops depth (.char c) = false ∧ depthAfter depth (.char c) = depth := by
  simp only [List.mem_cons, List.not_mem_nil, or_false] at hc
  rcases hc with rfl | rfl | rfl | rfl | rfl | rfl
  all_goals exact ⟨by simp [stops, marks], rfl⟩

lemma Takes.passes {outer outer' : List Pieces} {p p' : Pieces} {taken : List Lexeme}
    {slips : List Slip} (h : Takes outer p taken outer' p' slips) :
    Passes outer.length taken ∧ openAfter outer.length taken = outer'.length := by
  have hoperator : ∀ {c : Char} (depth : Nat), c ∈ ['=', '!', '<', '>', '&', '|'] →
      Passes depth [.char c] ∧ openAfter depth [.char c] = depth := by
    intro c depth hc
    obtain ⟨hpasses, hdepth⟩ := passes_operator hc depth
    exact ⟨⟨hpasses, True.intro⟩, hdepth⟩
  have hlogical : ∀ {c : Char}, c = '&' ∨ c = '|' → c ∈ ['=', '!', '<', '>', '&', '|'] := by
    rintro c (rfl | rfl) <;> simp
  cases h with
  | @word _ _ lexeme text hword hif =>
    cases lexeme with
    | word text => exact ⟨⟨decide_eq_false fun heq => hif (heq ▸ rfl), True.intro⟩, rfl⟩
    | number text value => exact ⟨⟨rfl, True.intro⟩, rfl⟩
    | _ => cases hword
  | quoted => exact ⟨⟨rfl, True.intro⟩, rfl⟩
  | opening => exact ⟨⟨by simp [stops, marks], True.intro⟩, rfl⟩
  | closing => exact ⟨⟨by simp [stops, marks], True.intro⟩, rfl⟩
  | mark hc => exact hoperator _ (List.mem_append_left ['&', '|'] hc)
  | @pair _ _ c hc =>
    obtain ⟨hpasses, hopen⟩ := hoperator outer.length (hlogical hc)
    have hboth := passes_append.2 ⟨hpasses, (congrArg (Passes · [.char c]) hopen).mpr hpasses⟩
    refine ⟨hboth, ?_⟩
    rw [openAfter] at hopen ⊢
    rw [List.foldl_cons] at hopen ⊢
    rw [List.foldl_nil] at hopen
    rw [hopen]
    exact hopen
  | doubled hc => exact hoperator _ (hlogical hc)
  | dangling hc => exact hoperator _ (hlogical hc)

lemma Passes.not_complete {depth : Nat} {tokens : List Token}
    (h : Passes depth (tokens.map Token.lexeme)) : ¬Complete tokens := by
  rintro ⟨last, hlast, hend⟩
  obtain ⟨front, rfl⟩ := List.getLast?_eq_some_iff.1 hlast
  rw [List.map_append, passes_append] at h
  have hstops := h.2.1
  cases hlexeme : last.lexeme <;> simp [hlexeme, stops, Lexeme.isEnd] at hstops hend

/-- A reading goes up to the first token that cannot belong to the expression, and fails if and only
if a parenthesis is open there. Without such a token, the tokens are used up. -/
def EndsAtFirstStop (depth : Nat) (tokens : List Token)
    (result : Except ReadFailure (Reading String)) :
    Prop :=
  (Passes depth (tokens.map Token.lexeme) ∧ result = .error .usedUp) ∨
    ∃ front stop rest, tokens = front ++ stop :: rest ∧
      FirstStop stop.lexeme depth (front.map Token.lexeme) ∧
        Ensures
          (fun failure => openAfter depth (front.map Token.lexeme) ≠ 0 ∧
            failure = .problem (obstacle stop.lexeme))
          (fun r => openAfter depth (front.map Token.lexeme) = 0 ∧
            r.stop = { token := stop, rest })
          result

lemma ensures_withSlip {E : ReadFailure → Prop} {Q : Reading String → Prop} (slips : List Slip)
    {result : Except ReadFailure (Reading String)}
    (hQ : ∀ r slip, Q r → Q { r with slips := slip :: r.slips }) (h : Ensures E Q result) :
    Ensures E Q (slips.foldr withSlip result) := by
  induction slips with
  | nil => exact h
  | cons slip slips ih =>
    rw [List.foldr_cons]
    cases hresult : slips.foldr withSlip result with
    | error failure => rwa [hresult] at ih
    | ok r =>
      rw [hresult] at ih
      exact hQ r slip ih

/-- Expressions are read up to their first stop. -/
theorem readFrom_endsAtFirstStop (outer : List Pieces) (p : Pieces) (tokens : List Token) :
    EndsAtFirstStop outer.length tokens (readFrom outer p tokens) := by
  refine reading_induction (motive := fun outer p tokens result =>
    EndsAtFirstStop outer.length tokens result) ?_ ?_ ?_ outer p tokens
  · intro outer p token rest hstop
    refine .inr ⟨[], token, rest, rfl, hstop, ?_⟩
    cases outer with
    | nil => exact ⟨rfl, rfl⟩
    | cons before outer => exact ⟨Nat.succ_ne_zero _, rfl⟩
  · intro outer p
    exact .inl ⟨True.intro, rfl⟩
  · intro outer p taken rest outer' p' slips result htakes hrest
    obtain ⟨hpasses, hopen⟩ := htakes.passes
    have hafter : ∀ front : List Token, openAfter outer.length ((taken ++ front).map Token.lexeme) =
        openAfter outer'.length (front.map Token.lexeme) := by
      intro front
      rw [openAfter] at hopen
      rw [List.map_append, openAfter, List.foldl_append, hopen, openAfter]
    rcases hrest with ⟨hrest, rfl⟩ | ⟨front, stop, rest, rfl, hfirst, hresult⟩
    · refine .inl ⟨?_, foldr_withSlip_error slips _⟩
      rw [List.map_append, passes_append, hopen]
      exact ⟨hpasses, hrest⟩
    · obtain ⟨hfront, hstop⟩ := firstStop_iff.1 hfirst
      refine .inr ⟨taken ++ front, stop, rest, (List.append_assoc ..).symm, firstStop_iff.2 ?_, ?_⟩
      · rw [hafter, List.map_append, passes_append, hopen]
        exact ⟨⟨hpasses, hfront⟩, hstop⟩
      · rw [hafter]
        exact ensures_withSlip slips (fun _ _ hr => hr) hresult

end Expression

lemma Complete.exists_digits_of_passes {depth : Nat} {tokens : List Token} (h : Complete tokens)
    (hpasses : Expression.Passes depth
      ((tokens.takeWhile Token.isDeliverable).map Token.lexeme)) :
    ∃ digits, tokens.findSome? (·.lexeme.excessDigits?) = some digits := by
  cases hdigits : tokens.findSome? (·.lexeme.excessDigits?) with
  | some digits => exact ⟨digits, rfl⟩
  | none =>
    have hall : ∀ token ∈ tokens, token.isDeliverable = true := fun token hmem =>
      Token.isDeliverable_iff.2 (List.findSome?_eq_none_iff.1 hdigits token hmem)
    rw [List.takeWhile_eq_self_iff.2 hall] at hpasses
    exact absurd h hpasses.not_complete

namespace TokenStream

open Expression

variable {s s' t : TokenStream} {token stop stop' : Token} {front front' rest : List Token}

/-- The present line is delivered up to its end. -/
def UpToEnd (s : TokenStream) : Prop :=
  s.upcoming ≠ [] → Complete s.upcoming

lemma UpToEnd.load (h : s.UpToEnd) (hload : s.load = .ok s') : s'.UpToEnd := by
  intro hne
  rcases upcoming_of_load hload with hsame | hend | ⟨linenr, line, hline⟩
  · rw [hsame] at hne ⊢
    exact h hne
  · rw [hend]
    exact ⟨_, rfl, rfl⟩
  · rw [hline]
    exact complete_ofLine linenr line

lemma stable_upToEnd : Stable UpToEnd where
  load := UpToEnd.load
  stopAt := by
    intro s stop h hstop hne
    rw [upcoming_stopAt] at hne ⊢
    obtain ⟨token, hmem⟩ := List.exists_mem_of_ne_nil _ hne
    exact (h (List.ne_nil_of_mem (hstop.subset hmem))).suffix hstop hne
  takeLines := by
    intro s s' p lines stop h htake
    unfold UpToEnd
    rw [upcoming_takeLines htake]
    exact h

lemma deliveries_of_upcoming (h : s.upcoming = front ++ token :: rest)
    (hfront : ∀ t ∈ front, t.isDeliverable = true) (htoken : token.isDeliverable = true) (n : Nat) :
    s.deliveries (front.length + n) =
      front.map .ok ++ (s.stopAt { token, rest }).deliveries n := by
  induction front generalizing s with
  | nil =>
    rw [List.length_nil, Nat.zero_add]
    change s.deliveries n = (s.stopAt { token, rest }).deliveries n
    cases n with
    | zero => rfl
    | succ n =>
      have hagain : (s.stopAt { token, rest }).upcoming = token :: rest := upcoming_stopAt _ _
      rw [deliveries, deliveries, nextCall_of_deliverable h htoken,
        nextCall_of_deliverable hagain htoken]
      rfl
  | cons first front ih =>
    obtain ⟨hfirst, hfront⟩ := List.forall_mem_cons.1 hfront
    have hrest : TokenStream.upcoming
        (s.stopAt { token := first, rest := front ++ token :: rest, kept := false }) =
          front ++ token :: rest := upcoming_stopAt _ _
    rw [List.length_cons, Nat.add_right_comm, deliveries, nextCall_of_deliverable h hfirst]
    exact congrArg (.ok first :: ·) (ih hrest hfront)

lemma deliveries_prefix (s : TokenStream) {m n : Nat} (hmn : m ≤ n) :
    s.deliveries m <+: s.deliveries n := by
  induction m generalizing n s with
  | zero => exact List.nil_prefix
  | succ m ih =>
    obtain ⟨n, rfl⟩ := Nat.exists_eq_add_of_le' hmn
    rw [← Nat.add_assoc, deliveries, deliveries, List.prefix_cons_inj]
    exact ih _ (Nat.le_add_left m n)

lemma prefix_of_map_ok {tokens tokens' : List Token}
    (h : tokens.map (Except.ok (ε := Fault)) <+: tokens'.map .ok) : tokens <+: tokens' := by
  have hmap := h.filterMap Except.toOption
  rw [List.filterMap_map, List.filterMap_map] at hmap
  change tokens.filterMap some <+: tokens'.filterMap some at hmap
  rwa [List.filterMap_some, List.filterMap_some] at hmap

/-- The stream delivers `front` and then `stop`, the first token that cannot belong to an
expression. -/
structure StopsAfter (s : TokenStream) (front : List Token) (stop : Token) : Prop where
  deliveries : s.deliveries (front.length + 1) = (front ++ [stop]).map .ok
  firstStop : FirstStop stop.lexeme 0 (front.map Token.lexeme)

lemma eq_of_firstStop {depth : Nat} (h : FirstStop stop.lexeme depth (front.map Token.lexeme))
    (h' : FirstStop stop'.lexeme depth (front'.map Token.lexeme))
    (hstarts : front ++ [stop] <+: front' ++ [stop']) : front = front' ∧ stop = stop' := by
  induction front generalizing depth front' with
  | nil =>
    cases front' with
    | nil => exact ⟨rfl, by simpa using hstarts⟩
    | cons first front' =>
      obtain ⟨rfl, -⟩ := List.cons_prefix_cons.1 hstarts
      exact absurd (h.symm.trans h'.1) (by decide)
  | cons first front ih =>
    cases front' with
    | nil => simpa using hstarts.length_le
    | cons first' front' =>
      obtain ⟨rfl, htail⟩ := List.cons_prefix_cons.1 hstarts
      obtain ⟨rfl, rfl⟩ := ih h.2 h'.2 htail
      exact ⟨rfl, rfl⟩

lemma StopsAfter.unique (h : s.StopsAfter front stop) (h' : s.StopsAfter front' stop') :
    front = front' ∧ stop = stop' := by
  rcases Nat.le_total (front.length + 1) (front'.length + 1) with hle | hle
  · have hstarts := s.deliveries_prefix hle
    rw [h.deliveries, h'.deliveries] at hstarts
    exact eq_of_firstStop h.firstStop h'.firstStop (prefix_of_map_ok hstarts)
  · have hstarts := s.deliveries_prefix hle
    rw [h.deliveries, h'.deliveries] at hstarts
    obtain ⟨rfl, rfl⟩ :=
      eq_of_firstStop h'.firstStop h.firstStop (prefix_of_map_ok hstarts)
    exact ⟨rfl, rfl⟩

end TokenStream

/-- At every state of a run, the line that is read is delivered up to its end. -/
theorem Reachable.upToEnd {fs : FileSystem} {settings : Settings} {s : State}
    (h : Reachable fs settings s) : s.ctx.Keeps settings.root TokenStream.UpToEnd :=
  h.keeps TokenStream.stable_upToEnd fun _ _ _ hne => absurd rfl hne

lemma Context.readNoting_of_load {α : Type} (read : List Token → Except ReadFailure (Reading α))
    {ctx : Context} {s t : TokenStream} (hcurrent : ctx.current = .ok s) (hload : s.load = .ok t) :
    (∀ failure, readDeliverable read t.upcoming = .error failure →
      ctx.readNoting read = .error ((ctx.setCurrent t).failed t.upcoming failure)) ∧
    ∀ r, readDeliverable read t.upcoming = .ok r → ctx.readNoting read =
      .ok (r.value, (ctx.setCurrent (t.stopAt r.stop)).note
        (Directive.slipFindings ⟨s.location, t.location⟩ r.slips)) := by
  have hlocation : ctx.location = .ok s.location := by
    rw [Context.location, hcurrent]
    rfl
  constructor
  · intro failure hread
    rw [readNoting, hlocation, readLine, hcurrent]
    simp only [bind, Except.bind, hload, Except.mapError, hread]
  · intro r hread
    rw [readNoting, hlocation, readLine, hcurrent]
    simp only [bind, Except.bind, hload, Except.mapError, hread]
    rfl

namespace TokenStream

variable {s t : TokenStream} {front : List Token} {stop : Token}

lemma deliveries_of_refused {digits : Nat}
    (hdigits : t.upcoming.findSome? (·.lexeme.excessDigits?) = some digits) :
    t.deliveries ((t.upcoming.takeWhile Token.isDeliverable).length + 1) =
      (t.upcoming.takeWhile Token.isDeliverable).map .ok ++ [.error (.tooManyDigits digits)] := by
  obtain ⟨front, token, rest, hupcoming, htoken, hfront⟩ := List.findSome?_eq_some_iff.1 hdigits
  have hdeliverable : ∀ t ∈ front, t.isDeliverable = true := fun t ht =>
    Token.isDeliverable_iff.2 (hfront t ht)
  have hrefused : ¬token.isDeliverable = true := by simp [Token.isDeliverable_iff, htoken]
  have htake : t.upcoming.takeWhile Token.isDeliverable = front := by
    rw [hupcoming, takeWhile_deliverable hdeliverable, List.takeWhile_cons_of_neg hrefused,
      List.append_nil]
  have houtcomes : front.map Token.outcome = front.map .ok :=
    List.map_congr_left fun t ht => by rw [Token.outcome, hfront t ht]
  have houtcome : token.outcome = .error (.tooManyDigits digits) := by
    rw [Token.outcome, htoken]
  have hlength : front.length + 1 ≤ t.upcoming.length := by simp [hupcoming]
  have hfirst : t.upcoming.take (front.length + 1) = front ++ [token] := by
    rw [hupcoming, List.take_length_add_append, List.take_succ_cons, List.take_zero]
  rw [htake, deliveries_of_le hlength, hfirst, List.map_append, houtcomes, List.map_singleton,
    houtcome]

lemma StopsAfter.prefix_of_refused {refused : List Token} {fault : Fault}
    (h : s.StopsAfter front stop)
    (hrefused : s.deliveries (refused.length + 1) = refused.map .ok ++ [.error fault]) :
    front ++ [stop] <+: refused := by
  have hnot : (.error fault : Except Fault Token) ∉ (front ++ [stop]).map .ok := by simp
  rcases Nat.le_total (front.length + 1) (refused.length + 1) with hle | hle
  · have hstarts := s.deliveries_prefix hle
    rw [h.deliveries, hrefused] at hstarts
    rcases List.prefix_concat_iff.1 hstarts with heq | hstarts
    · exact absurd (heq ▸ List.mem_append_right _ (List.mem_singleton_self _)) hnot
    · exact prefix_of_map_ok hstarts
  · have hstarts := s.deliveries_prefix hle
    rw [h.deliveries, hrefused] at hstarts
    exact absurd (hstarts.subset (List.mem_append_right _ (List.mem_singleton_self _))) hnot

lemma stopsAfter_of_load {rest : List Token} (hload : s.load = .ok t)
    (htake : t.upcoming.takeWhile Token.isDeliverable = front ++ stop :: rest)
    (hfirst : Expression.FirstStop stop.lexeme 0 (front.map Token.lexeme)) :
    s.StopsAfter front stop ∧ ∀ n, s.deliveries (front.length + n) = front.map .ok ++
      (t.stopAt { token := stop
                  rest := rest ++ t.upcoming.dropWhile Token.isDeliverable }).deliveries n := by
  have hsplit : t.upcoming =
      front ++ stop :: (rest ++ t.upcoming.dropWhile Token.isDeliverable) := by
    rw [← List.cons_append, ← List.append_assoc, ← htake, List.takeWhile_append_dropWhile]
  have hdeliverable : ∀ token ∈ front ++ stop :: rest, token.isDeliverable = true := by
    rw [← htake]
    exact fun token => List.mem_takeWhile_imp
  obtain ⟨hfront, hdeliverable⟩ := List.forall_mem_append.1 hdeliverable
  have hstop := hdeliverable stop List.mem_cons_self
  have hdeliveries : ∀ n, s.deliveries (front.length + n) = front.map .ok ++
      (t.stopAt { token := stop
                  rest := rest ++ t.upcoming.dropWhile Token.isDeliverable }).deliveries n := by
    intro n
    rw [deliveries_of_load hload, deliveries_of_upcoming hsplit hfront hstop]
  refine ⟨⟨?_, hfirst⟩, hdeliveries⟩
  have hnext := nextCall_of_deliverable (upcoming_stopAt t
    { token := stop, rest := rest ++ t.upcoming.dropWhile Token.isDeliverable }) hstop
  rw [hdeliveries, deliveries, hnext, List.map_append]
  rfl

end TokenStream

/-- An expression is read from exactly the tokens in front of the first one that cannot belong to
it, and there always is such a token, unless a word in front of it is too long for a number. If all
parentheses are closed there, this token and those after it are delivered next, as if nothing had
been read; otherwise there is no expression, and nothing else can be wrong. -/
theorem readExpression_stops {ctx : Context} {s t : TokenStream} (hcurrent : ctx.current = .ok s)
    (hends : s.UpToEnd) (hload : s.load = .ok t) :
    ((∃ front stop, s.StopsAfter front stop) ∨ ∃ (front : List Token) (digits : Nat),
      s.deliveries (front.length + 1) = front.map .ok ++ [.error (.tooManyDigits digits)] ∧
        ctx.readExpression = .error (.tooManyDigits digits)) ∧
    ∀ front stop, s.StopsAfter front stop →
      (Expression.openAfter 0 (front.map Token.lexeme) = 0 →
        ∃ text s' findings, ctx.readExpression = .ok (text, (ctx.setCurrent s').note findings) ∧
          ∀ n, s.deliveries (front.length + n) = front.map .ok ++ s'.deliveries n) ∧
      (Expression.openAfter 0 (front.map Token.lexeme) ≠ 0 → ctx.readExpression =
        .error (.malformed (some t.location) (Expression.obstacle stop.lexeme))) := by
  have hcomplete := hends.load hload (TokenStream.load_after hload).2
  obtain ⟨herror, hok⟩ := Context.readNoting_of_load Expression.read hcurrent hload
  rcases Expression.readFrom_endsAtFirstStop [] {} (t.upcoming.takeWhile Token.isDeliverable) with
    ⟨hpasses, hread⟩ | ⟨front, stop, rest, htake, hfirst, hresult⟩
  · obtain ⟨digits, hdigits⟩ := hcomplete.exists_digits_of_passes hpasses
    have hrefused := (TokenStream.deliveries_of_load hload _).trans
      (TokenStream.deliveries_of_refused hdigits)
    refine ⟨.inr ⟨_, digits, hrefused, ?_⟩, fun front stop hstops => ?_⟩
    · rw [Context.readExpression, herror .usedUp ?_, Context.failed, hdigits]
      · rfl
      · rw [readDeliverable, Expression.read, hread]
        rfl
    · have hstarts := (hstops.prefix_of_refused hrefused).map Token.lexeme
      rw [List.map_append] at hstarts
      exact absurd hpasses (hstops.firstStop.not_passes hstarts)
  · obtain ⟨hstops, hdeliveries⟩ := TokenStream.stopsAfter_of_load hload htake hfirst
    refine ⟨.inl ⟨front, stop, hstops⟩, fun front' stop' hstops' => ?_⟩
    obtain ⟨rfl, rfl⟩ := hstops.unique hstops'
    cases hread : Expression.readFrom [] {} (t.upcoming.takeWhile Token.isDeliverable) with
    | error failure =>
      rw [hread] at hresult
      obtain ⟨hopen, rfl⟩ := hresult
      refine ⟨fun hclosed => absurd hclosed hopen, fun _ => ?_⟩
      exact herror (.problem _) (by
        rw [readDeliverable, Expression.read, hread]
        rfl)
    | ok r =>
      rw [hread] at hresult
      obtain ⟨hclosed, hend⟩ := hresult
      have hread' := hok _ (readDeliverable_eq_ok.2 ⟨r, hread, rfl⟩)
      refine ⟨fun _ => ⟨r.value, _, _, hread', ?_⟩, fun hopen => absurd hclosed hopen⟩
      rw [hend]
      exact hdeliveries

/-- The stream of `atLineText`. -/
def lineText (line : String) : TokenStream where
  lines := { file := "K", rest := [] }
  rest := Token.ofLine 1 line.toList

lemma current_atLineText (line : String) : (atLineText line).current = .ok (lineText line) :=
  rfl

lemma load_lineText (line : String) : (lineText line).load = .ok (lineText line) :=
  if_pos (complete_ofLine 1 line.toList).ne_nil

/-- The expression ends in front of `if`; a parenthesis that is open there is a problem. -/
theorem readExpression_stops_if :
    (∃ text s' findings, (atLineText "(A & B) if C").readExpression =
        .ok (text, ((atLineText "(A & B) if C").setCurrent s').note findings) ∧
      (s'.deliveries 3).map (·.toOption.map Token.lexeme) =
        [some (.word "if"), some (.word "C"), some .lineEnd]) ∧
    (atLineText "((A) if C").readExpression =
      .error (.malformed (some ⟨"K", 0⟩) .parenthesisOpen) := by
  have hends : ∀ line, (lineText line).UpToEnd := fun line _ => complete_ofLine 1 line.toList
  constructor
  · have hstops : (lineText "(A & B) if C").StopsAfter
        [⟨.char '(', 1⟩, ⟨.word "A", 1⟩, ⟨.char '&', 1⟩, ⟨.word "B", 1⟩, ⟨.char ')', 1⟩]
        ⟨.word "if", 1⟩ := ⟨by decide +kernel, by decide⟩
    obtain ⟨-, hread⟩ := readExpression_stops (current_atLineText "(A & B) if C") (hends _)
      (load_lineText _)
    obtain ⟨text, s', findings, hresult, hrest⟩ := (hread _ _ hstops).1 (by decide)
    refine ⟨text, s', findings, hresult, ?_⟩
    have hlexemes : (((lineText "(A & B) if C").deliveries 8).drop 5).map
          (·.toOption.map Token.lexeme) =
        (s'.deliveries 3).map (·.toOption.map Token.lexeme) :=
      congrArg (fun result => (result.drop 5).map fun outcome => outcome.toOption.map Token.lexeme)
        (hrest 3)
    rw [← hlexemes]
    decide +kernel
  · have hstops : (lineText "((A) if C").StopsAfter
        [⟨.char '(', 1⟩, ⟨.char '(', 1⟩, ⟨.word "A", 1⟩, ⟨.char ')', 1⟩] ⟨.word "if", 1⟩ :=
      ⟨by decide +kernel, by decide⟩
    obtain ⟨-, hread⟩ := readExpression_stops (current_atLineText "((A) if C") (hends _)
      (load_lineText _)
    exact (hread _ _ hstops).2 (by decide)

end Kconfig
