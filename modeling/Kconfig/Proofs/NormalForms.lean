import Kconfig.Proofs.Expressions

/-!
# Normal forms are read back

The text of an expression is put together from pieces: operands with a blank between those that
follow each other, and operators with or without blanks around them. No two pieces grow together
when the text is read again: each gives the lexemes that stand for it, and these are taken for the
same piece. So the text is its own normal form, whatever expression it was read from, and it is read
without slips.
-/

namespace Kconfig

open Text (isBlank)

namespace Lexeme

/-- The lexeme stands for a word of a line, or for a text that double quotes can enclose. -/
structure Legible (lexeme : Lexeme) : Prop where
  word : ∀ text, lexeme.wordText? = some text → IsWord text ∧ lexeme = ofWord text.toList
  quoted : ∀ quote text, lexeme = .quoted quote text → '"' ∉ text.toList
  convertible : lexeme.excessDigits? = none

lemma wordText?_ofWord (word : List Char) : (ofWord word).wordText? = some (.ofList word) := by
  unfold ofWord
  split <;> rfl

lemma eq_ofWord_of_first? {line rest : List Char} {lexeme : Lexeme} {text : String}
    (h : first? line = some (lexeme, rest)) (htext : lexeme.wordText? = some text) :
    lexeme = ofWord text.toList := by
  unfold first? at h
  split at h
  · cases h
  · split at h
    · cases h
    · split at h
      · cases h
        cases htext
      · split at h
        · cases h
          rw [wordText?_ofWord, Option.some.injEq] at htext
          rw [← htext, String.toList_ofList]
        · cases h
          cases htext

lemma eq_ofWord_of_mem_scan (line : List Char) : ∀ lexeme ∈ scan line, ∀ text,
    lexeme.wordText? = some text → lexeme = ofWord text.toList := by
  fun_induction scan line with
  | case1 line h =>
    refine List.forall_mem_singleton.2 ?_
    rintro text ⟨⟩
  | case2 line lexeme rest h ih =>
    exact List.forall_mem_cons.2 ⟨fun _ => eq_ofWord_of_first? h, ih⟩

end Lexeme

namespace Expression

variable {p p' before : Pieces} {core piece gap gap' : List Char} {lexemes more : List Lexeme}

/-- Blanks as the normal form has them. -/
def Gap (text : List Char) : Prop :=
  ∀ c ∈ text, c = ' '

/-- A text that is neither empty nor begins or ends with a blank. -/
structure Firm (text : List Char) : Prop where
  ne_nil : text ≠ []
  first : ∀ c ∈ text.head?, isBlank c = false
  last : ∀ c ∈ text.getLast?, isBlank c = false

/-- What has been read of an expression is `core`, up to blanks, and reading this text again leads
to the same place. -/
structure Settled (p : Pieces) (core : List Char) (lexemes : List Lexeme) : Prop where
  written : ∃ lead trail, p.text = lead ++ (core ++ trail) ∧ Gap lead ∧ Gap trail ∧
    (p.afterOperand = true → trail = [])
  firm : core = [] ∨ Firm core
  scan : ∀ rest, (p.afterOperand = true → EndsWord rest) →
    Lexeme.scan (core ++ rest) = lexemes ++ Lexeme.scan rest
  read : ∀ outer n tokens, Complete tokens →
    readFrom outer {} (lexemes.map (Token.mk · n) ++ tokens) = readFrom outer p tokens
  convertible : ∀ lexeme ∈ lexemes, lexeme.excessDigits? = none

/-- Some text has been read that can be read again. -/
def Pieces.Settles (p : Pieces) : Prop :=
  ∃ core lexemes, Settled p core lexemes

lemma Gap.append (h : Gap gap) (h' : Gap gap') : Gap (gap ++ gap') :=
  List.forall_mem_append.2 ⟨h, h'⟩

lemma Gap.scan (h : Gap gap) (rest : List Char) :
    Lexeme.scan (gap ++ rest) = Lexeme.scan rest := by
  induction gap with
  | nil => rfl
  | cons c gap ih =>
    obtain ⟨rfl, hgap⟩ := List.forall_mem_cons.1 h
    rw [List.cons_append, Lexeme.scan_separator rfl, ih hgap]

lemma Gap.dropWhile (h : Gap gap) (rest : List Char) :
    (gap ++ rest).dropWhile isBlank = rest.dropWhile isBlank :=
  List.dropWhile_append_of_pos fun c hc => by rw [h c hc]; rfl

lemma Gap.trimLeft (h : Gap gap) (rest : List Char) :
    Text.trimLeft (gap ++ rest) = Text.trimLeft rest :=
  h.dropWhile rest

lemma Gap.trimRight (h : Gap gap) (text : List Char) :
    Text.trimRight (text ++ gap) = Text.trimRight text := by
  have hreverse : Gap gap.reverse := fun c hc => h c (List.mem_reverse.1 hc)
  rw [Text.trimRight, Text.trimRight, List.reverse_append, hreverse.dropWhile]

lemma Firm.append {piece' : List Char} (h : Firm piece) (h' : Firm piece') (text : List Char) :
    Firm (piece ++ (text ++ piece')) where
  ne_nil := List.append_ne_nil_of_left_ne_nil h.ne_nil _
  first := by
    rw [List.head?_append_of_ne_nil _ h.ne_nil]
    exact h.first
  last := by
    have hlast := List.getLast?_eq_some_getLast h'.ne_nil
    rw [List.getLast?_append, List.getLast?_append, hlast, Option.some_or, Option.some_or, ← hlast]
    exact h'.last

lemma Firm.trimLeft (h : Firm piece) (rest : List Char) :
    Text.trimLeft (piece ++ rest) = piece ++ rest := by
  obtain ⟨c, piece, rfl⟩ := List.exists_cons_of_ne_nil h.ne_nil
  exact List.dropWhile_cons_of_neg (by simp [h.first c rfl])

lemma Settled.result_eq (h : Settled p core lexemes) : p.result = core := by
  obtain ⟨lead, trail, hwritten, hlead, htrail, -⟩ := h.written
  rw [Pieces.result, hwritten, Text.trim, hlead.trimLeft]
  rcases h.firm with rfl | hfirm
  · have hnil : Text.trimLeft trail = Text.trimLeft [] := by simpa using htrail.trimLeft []
    rw [List.nil_append, hnil]
    rfl
  · have htrim := trim_eq_self hfirm.first hfirm.last
    have hleft := hfirm.trimLeft []
    rw [List.append_nil] at hleft
    rw [Text.trim, hleft] at htrim
    rw [hfirm.trimLeft, htrail.trimRight, htrim]

lemma settled_empty : Settled {} [] [] where
  written := ⟨[], [], rfl, List.forall_mem_nil _, List.forall_mem_nil _, fun _ => rfl⟩
  firm := .inl rfl
  scan := fun _ _ => rfl
  read := fun _ _ _ _ => rfl
  convertible := List.forall_mem_nil _

lemma Settled.append (h : Settled p core lexemes)
    (hwritten : p'.text = p.text ++ (gap ++ (piece ++ gap'))) (hpiece : Firm piece) (hgap : Gap gap)
    (hgap' : Gap gap') (hafter : p'.afterOperand = true → gap' = [])
    (hends : p.afterOperand = true → ∀ rest, EndsWord (gap ++ (piece ++ rest)))
    (hscan : ∀ rest, (p'.afterOperand = true → EndsWord rest) →
      Lexeme.scan (piece ++ rest) = more ++ Lexeme.scan rest)
    (hread : ∀ outer n tokens, Complete tokens →
      readFrom outer p (more.map (Token.mk · n) ++ tokens) = readFrom outer p' tokens)
    (hmore : ∀ lexeme ∈ more, lexeme.excessDigits? = none) : p'.Settles := by
  obtain ⟨lead, trail, htext, hlead, htrail, hnil⟩ := h.written
  have hread' : ∀ outer n tokens, Complete tokens →
      readFrom outer {} ((lexemes ++ more).map (Token.mk · n) ++ tokens) =
        readFrom outer p' tokens := by
    intro outer n tokens htokens
    rw [List.map_append, List.append_assoc, h.read _ _ _ (htokens.append _), hread _ _ _ htokens]
  have hdigits := List.forall_mem_append.2 ⟨h.convertible, hmore⟩
  rcases h.firm with rfl | hfirm
  · refine ⟨piece, lexemes ++ more, ?_, .inr hpiece, ?_, hread', hdigits⟩
    · refine ⟨lead ++ (trail ++ gap), gap', ?_, hlead.append (htrail.append hgap), hgap', hafter⟩
      simp [hwritten, htext]
    · have hempty := h.scan [] fun _ _ hc => nomatch hc
      have hlexemes : lexemes = [] := by simpa using hempty
      rwa [hlexemes]
  · refine ⟨core ++ (trail ++ gap ++ piece), lexemes ++ more, ?_, .inr (hfirm.append hpiece _), ?_,
      hread', hdigits⟩
    · exact ⟨lead, gap', by simp [hwritten, htext], hlead, hgap', hafter⟩
    · intro rest hrest
      have hends' : p.afterOperand = true → EndsWord (trail ++ (gap ++ (piece ++ rest))) := by
        intro hoperand
        rw [hnil hoperand]
        exact hends hoperand rest
      have hassoc : core ++ (trail ++ gap ++ piece) ++ rest =
          core ++ (trail ++ (gap ++ (piece ++ rest))) := by simp
      rw [hassoc, h.scan _ hends', htrail.scan, hgap.scan, hscan rest hrest, List.append_assoc]

lemma Settled.operand (piece : List Char) (more : List Lexeme) (h : Settled p core lexemes)
    (hpiece : Firm piece)
    (hscan : ∀ rest, EndsWord rest → Lexeme.scan (piece ++ rest) = more ++ Lexeme.scan rest)
    (hread : ∀ outer n tokens, Complete tokens →
      readFrom outer p (more.map (Token.mk · n) ++ tokens) =
        readFrom outer (p.operand piece) tokens)
    (hmore : ∀ lexeme ∈ more, lexeme.excessDigits? = none) : (p.operand piece).Settles := by
  have hwritten : (p.operand piece).text =
      p.text ++ ((if p.afterOperand then [' '] else []) ++ (piece ++ [])) := by
    rw [Pieces.operand]
    split <;> simp
  have hgap : Gap (if p.afterOperand then [' '] else []) := by
    split
    · exact List.forall_mem_singleton.2 rfl
    · exact List.forall_mem_nil _
  refine h.append hwritten hpiece hgap (List.forall_mem_nil _) (fun _ => rfl) ?_
    (fun rest hrest => hscan rest (hrest rfl)) hread hmore
  intro hoperand rest
  rw [if_pos hoperand]
  exact endsWord_cons rfl _

lemma Settled.operator (gap piece : List Char) (more : List Lexeme) (h : Settled p core lexemes)
    (hpiece : Firm piece) (hgap : Gap gap) (hends : ∀ rest, EndsWord (gap ++ (piece ++ rest)))
    (hscan : ∀ rest, Lexeme.scan (piece ++ rest) = more ++ Lexeme.scan rest)
    (hread : ∀ outer n tokens, Complete tokens →
      readFrom outer p (more.map (Token.mk · n) ++ tokens) =
        readFrom outer (p.operator (gap ++ (piece ++ gap))) tokens)
    (hmore : ∀ lexeme ∈ more, lexeme.excessDigits? = none) :
    (p.operator (gap ++ (piece ++ gap))).Settles :=
  h.append rfl hpiece hgap hgap (fun hoperand => nomatch hoperand) (fun _ => hends)
    (fun rest _ => hscan rest) hread hmore

variable {outer : List Pieces} {tokens : List Token}

lemma readFrom_word {lexeme : Lexeme} {text : String} (h : lexeme.wordText? = some text)
    (hif : lexeme ≠ .word "if") (n : Nat) (htokens : tokens ≠ []) :
    readFrom outer p (⟨lexeme, n⟩ :: tokens) = readFrom outer (p.operand text.toList) tokens := by
  obtain ⟨next, tokens, rfl⟩ := List.exists_cons_of_ne_nil htokens
  cases lexeme with
  | word text =>
    cases h
    have hne : text ≠ "if" := fun heq => hif (congrArg Lexeme.word heq)
    exact if_neg hne
  | number text value =>
    cases h
    rfl
  | _ => cases h

/-- It makes no difference whether an operator of two characters is read at once. -/
lemma readFrom_mark {c : Char} (hc : c ∈ ['=', '!', '<', '>']) (n : Nat) (h : Complete tokens) :
    readFrom outer p (⟨.char c, n⟩ :: tokens) = readFrom outer (p.operator [c]) tokens := by
  obtain ⟨next, rest, rfl⟩ := List.exists_cons_of_ne_nil h.ne_nil
  by_cases hequals : next.lexeme = .char '='
  · obtain ⟨lexeme, m⟩ := next
    cases hequals
    obtain ⟨last, rest, rfl⟩ := List.exists_cons_of_ne_nil (h.tail rfl).ne_nil
    have hboth : (p.operator [c]).operator ['='] = p.operator [c, '='] := by
      simp [Pieces.operator]
    simp only [List.mem_cons, List.not_mem_nil, or_false] at hc
    rcases hc with rfl | hc
    · rfl
    · have hagain : readFrom outer (p.operator [c]) (⟨.char '=', m⟩ :: last :: rest) =
          readFrom outer ((p.operator [c]).operator ['=']) (last :: rest) := rfl
      rw [hagain, hboth]
      rcases hc with rfl | rfl | rfl <;> rfl
  · simp only [List.mem_cons, List.not_mem_nil, or_false] at hc
    rcases hc with rfl | rfl | rfl | rfl
    · rfl
    all_goals exact if_neg hequals

lemma firm_word {text : String} (h : IsWord text) : Firm text.toList where
  ne_nil := by
    intro hnil
    exact h.nonempty (String.toList_eq_nil_iff.1 hnil)
  first := fun c hc => not_isBlank_of_isWordLetter (h.letters c (List.mem_of_mem_head? hc))
  last := fun c hc => not_isBlank_of_isWordLetter (h.letters c (List.mem_of_mem_getLast? hc))

lemma firm_enclosed {first last : Char} (hfirst : isBlank first = false)
    (hlast : isBlank last = false) (text : List Char) : Firm (first :: (text ++ [last])) where
  ne_nil := List.cons_ne_nil _ _
  first := by
    rintro c ⟨⟩
    exact hfirst
  last := by
    rw [← List.cons_append, List.getLast?_concat]
    rintro c ⟨⟩
    exact hlast

lemma firm_mark {c : Char} (hc : isBlank c = false) : Firm [c] where
  ne_nil := List.cons_ne_nil _ _
  first := by
    rintro d ⟨⟩
    exact hc
  last := by
    rintro d ⟨⟩
    exact hc

lemma Settled.word {lexeme : Lexeme} {text : String} (h : Settled p core lexemes)
    (hlegible : lexeme.Legible) (htext : lexeme.wordText? = some text)
    (hif : lexeme ≠ .word "if") : (p.operand text.toList).Settles := by
  obtain ⟨hword, hofWord⟩ := hlegible.word text htext
  have hfirm := firm_word hword
  have hscan : ∀ rest, EndsWord rest →
      Lexeme.scan (text.toList ++ rest) = [lexeme] ++ Lexeme.scan rest := by
    intro rest hrest
    rw [Lexeme.scan_word hfirm.ne_nil hword.letters hrest, ← hofWord, List.singleton_append]
  exact h.operand text.toList [lexeme] hfirm hscan
    (fun outer n tokens htokens => readFrom_word htext hif n htokens.ne_nil)
    (List.forall_mem_singleton.2 hlegible.convertible)

lemma Settled.quoted {text : List Char} (h : Settled p core lexemes) (htext : '"' ∉ text) :
    (p.operand ('"' :: text ++ ['"'])).Settles := by
  have hscan : ∀ rest, EndsWord rest → Lexeme.scan ('"' :: text ++ ['"'] ++ rest) =
      [.quoted '"' (.ofList text)] ++ Lexeme.scan rest := by
    intro rest _
    rw [List.append_assoc]
    exact Lexeme.scan_closed rfl htext
  have hread : ∀ outer n tokens, Complete tokens →
      readFrom outer p ([.quoted '"' (.ofList text)].map (Token.mk · n) ++ tokens) =
        readFrom outer (p.operand ('"' :: text ++ ['"'])) tokens := by
    intro outer n tokens htokens
    obtain ⟨next, tokens, rfl⟩ := List.exists_cons_of_ne_nil htokens.ne_nil
    simp [readFrom]
  exact h.operand _ _ (firm_enclosed rfl rfl text) hscan hread (List.forall_mem_singleton.2 rfl)

lemma Settled.group {inner : Pieces} {core' : List Char} {lexemes' : List Lexeme}
    (h : Settled before core lexemes) (hinner : Settled inner core' lexemes') :
    (before.operand ('(' :: inner.result ++ [')'])).Settles := by
  have hscan : ∀ rest, EndsWord rest → Lexeme.scan ('(' :: inner.result ++ [')'] ++ rest) =
      .char '(' :: (lexemes' ++ [.char ')']) ++ Lexeme.scan rest := by
    intro rest _
    have hclosing : Lexeme.scan (')' :: rest) = .char ')' :: Lexeme.scan rest :=
      Lexeme.scan_single rfl
    have hinner' := hinner.scan (')' :: rest) fun _ => endsWord_cons rfl _
    rw [hinner.result_eq, List.cons_append, List.cons_append, List.append_assoc,
      List.singleton_append, Lexeme.scan_single rfl, hinner', hclosing]
    simp
  have hread : ∀ outer n tokens, Complete tokens →
      readFrom outer before
          ((.char '(' :: (lexemes' ++ [.char ')'])).map (Token.mk · n) ++ tokens) =
        readFrom outer (before.operand ('(' :: inner.result ++ [')'])) tokens := by
    intro outer n tokens htokens
    have hclosing := htokens.cons ⟨.char ')', n⟩
    have hassoc : (.char '(' :: (lexemes' ++ [.char ')'])).map (Token.mk · n) ++ tokens =
        ⟨.char '(', n⟩ :: (lexemes'.map (Token.mk · n) ++ ⟨.char ')', n⟩ :: tokens) := by simp
    rw [hassoc, readFrom_opening n (hclosing.append _).ne_nil, hinner.read _ n _ hclosing,
      readFrom_closing n htokens.ne_nil]
  have hmore : ∀ lexeme ∈ Lexeme.char '(' :: (lexemes' ++ [.char ')']),
      lexeme.excessDigits? = none :=
    List.forall_mem_cons.2 ⟨rfl, List.forall_mem_append.2
      ⟨hinner.convertible, List.forall_mem_singleton.2 rfl⟩⟩
  exact h.operand _ _ (firm_enclosed rfl rfl inner.result) hscan hread hmore

lemma Settled.mark {c : Char} (h : Settled p core lexemes) (hc : c ∈ ['=', '!', '<', '>']) :
    (p.operator [c]).Settles := by
  have hsorts : isBlank c = false ∧ isWordLetter c = false ∧ Lexeme.isSingle c = true := by
    revert c
    decide
  obtain ⟨hblank, hletter, hsingle⟩ := hsorts
  exact h.operator [] [c] [.char c] (firm_mark hblank) (List.forall_mem_nil _)
    (fun rest => endsWord_cons hletter _) (fun rest => Lexeme.scan_single hsingle)
    (fun outer n tokens htokens => readFrom_mark hc n htokens) (List.forall_mem_singleton.2 rfl)

lemma Settled.pair {c : Char} (h : Settled p core lexemes) (hc : c = '&' ∨ c = '|') :
    (p.operator [' ', c, c, ' ']).Settles := by
  have hsorts : isBlank c = false ∧ Lexeme.isSingle c = true := by
    rcases hc with rfl | rfl <;> decide
  obtain ⟨hblank, hsingle⟩ := hsorts
  exact h.operator [' '] [c, c] [.char c, .char c] (firm_enclosed hblank hblank [])
    (List.forall_mem_singleton.2 rfl) (fun rest => endsWord_cons rfl _)
    (fun rest => (Lexeme.scan_single hsingle).trans (congrArg _ (Lexeme.scan_single hsingle)))
    (fun outer n tokens htokens => readFrom_double n hc htokens.ne_nil)
    (List.forall_mem_cons.2 ⟨rfl, List.forall_mem_singleton.2 rfl⟩)

lemma Takes.settles {outer' : List Pieces} {slips : List Slip}
    (h : Takes outer p lexemes outer' p' slips) (hlegible : ∀ lexeme ∈ lexemes, lexeme.Legible)
    (houter : ∀ before ∈ outer, before.Settles) (hp : p.Settles) :
    (∀ before ∈ outer', before.Settles) ∧ p'.Settles := by
  obtain ⟨core, written, hsettled⟩ := hp
  cases h with
  | word htext hif => exact ⟨houter, hsettled.word (hlegible _ List.mem_cons_self) htext hif⟩
  | quoted =>
    have hdouble := (hlegible _ List.mem_cons_self).quoted _ _ rfl
    exact ⟨houter, hsettled.quoted hdouble⟩
  | opening =>
    exact ⟨List.forall_mem_cons.2 ⟨⟨core, written, hsettled⟩, houter⟩, ⟨[], [], settled_empty⟩⟩
  | closing =>
    obtain ⟨⟨core', written', hbefore⟩, houter⟩ := List.forall_mem_cons.1 houter
    exact ⟨houter, hbefore.group hsettled⟩
  | mark hc => exact ⟨houter, hsettled.mark hc⟩
  | pair hc => exact ⟨houter, hsettled.pair hc⟩
  | doubled hc => exact ⟨houter, hsettled.pair hc⟩
  | dangling hc => exact ⟨houter, ⟨core, written, hsettled⟩⟩

/-- The value of a reading is the normal form of something that can be read again. -/
def Rereadable (result : Except ReadFailure (Reading String)) : Prop :=
  Ensures (fun _ => True) (fun r => ∃ last : Pieces, last.Settles ∧ r.value = .ofList last.result)
    result

theorem readFrom_rereadable (hlegible : ∀ token ∈ tokens, token.lexeme.Legible) :
    Rereadable (readFrom [] {} tokens) := by
  refine reading_induction (motive := fun outer p tokens result =>
    (∀ token ∈ tokens, token.lexeme.Legible) → (∀ before ∈ outer, before.Settles) → p.Settles →
      Rereadable result) ?_ ?_ ?_ [] {} tokens hlegible (List.forall_mem_nil _)
    ⟨[], [], settled_empty⟩
  · intro outer p token rest hstop hlegible houter hp
    cases outer with
    | nil => exact ⟨p, hp, rfl⟩
    | cons before outer => exact True.intro
  · intro outer p _ _ _
    exact True.intro
  · intro outer p taken rest outer' p' slips result htakes ih hlegible houter hp
    obtain ⟨htaken, hlegible⟩ := List.forall_mem_append.1 hlegible
    obtain ⟨houter', hp'⟩ := htakes.settles (List.forall_mem_map.2 htaken) houter hp
    exact ensures_withSlip slips (fun _ _ hr => hr) (ih hlegible houter' hp')

end Expression

/-- If no text in quotes has double quotes in it, what is read of an expression is its own normal
form: where it stands alone in a line, it is read again up to the end of the line, and nothing is
entered into the report. -/
theorem readExpression_again {ctx ctx' again : Context} {s t s' t' : TokenStream}
    {line : List Char} {n m : Nat} {text : String} (hcurrent : ctx.current = .ok s)
    (hload : s.load = .ok t) (hline : t.upcoming <:+ Token.ofLine n line)
    (hquoted : ∀ token ∈ t.upcoming, ∀ quote text, token.lexeme = .quoted quote text →
      '"' ∉ text.toList)
    (hread : ctx.readExpression = .ok (text, ctx')) (hagain : again.current = .ok s')
    (hload' : s'.load = .ok t') (hline' : t'.upcoming = Token.ofLine m text.toList) :
    again.readExpression =
      .ok (text, again.setCurrent (t'.stopAt { token := ⟨.lineEnd, m⟩, rest := [] })) := by
  have hlegible : ∀ token ∈ t.upcoming.takeWhile Token.isDeliverable, token.lexeme.Legible := by
    intro token htake
    have hmem := (List.takeWhile_prefix _).subset htake
    have hdeliverable := List.mem_takeWhile_imp htake
    obtain ⟨lexeme, hlexeme, rfl⟩ := List.mem_map.1 (hline.subset hmem)
    refine ⟨fun text htext => ⟨?_, ?_⟩, hquoted _ hmem, Token.isDeliverable_iff.1 hdeliverable⟩
    · exact Lexeme.spelled_of_mem_scan line lexeme hlexeme text htext
    · exact Lexeme.eq_ofWord_of_mem_scan line lexeme hlexeme text htext
  obtain ⟨herror, hok⟩ := Context.readNoting_of_load Expression.read hcurrent hload
  have hrereadable := Expression.readFrom_rereadable hlegible
  cases hfirst : readDeliverable Expression.read t.upcoming with
  | error failure => cases (herror failure hfirst).symm.trans hread
  | ok r =>
    cases (hok r hfirst).symm.trans hread
    obtain ⟨r', hr', rfl⟩ := readDeliverable_eq_ok.1 hfirst
    rw [← Expression.read, hr'] at hrereadable
    obtain ⟨last, ⟨core, lexemes, hsettled⟩, hvalue⟩ := hrereadable
    have htokens : t'.upcoming = lexemes.map (Token.mk · m) ++ [⟨.lineEnd, m⟩] := by
      have hscan := hsettled.scan [] fun _ _ hc => absurd hc (Option.not_mem_none _)
      rw [List.append_nil, Lexeme.scan_nil] at hscan
      rw [hline', hvalue, String.toList_ofList, hsettled.result_eq, Token.ofLine, hscan,
        List.map_append]
      rfl
    have hsecond : readDeliverable Expression.read t'.upcoming =
        .ok { value := r'.value, stop := { token := ⟨.lineEnd, m⟩, rest := [] } } := by
      rw [htokens, readDeliverable_of_all, Expression.read, hsettled.read [] m _ ⟨_, rfl, rfl⟩,
        hvalue]
      · rfl
      · refine List.forall_mem_append.2 ⟨List.forall_mem_map.2 fun lexeme hmem => ?_,
          List.forall_mem_singleton.2 rfl⟩
        exact Token.isDeliverable_iff.2 (hsettled.convertible lexeme hmem)
    exact (Context.readNoting_of_load Expression.read hagain hload').2 _ hsecond

/-- Adjacent operands, a tripled `&`, empty parentheses and a lone `|`. -/
theorem readExpression_again_malformed : ∃ ctx ctx',
    (atLineText "A 'b' &&& () | if C").readExpression = .ok ("A \"b\" &&  && ()", ctx) ∧
      (atLineText "A \"b\" &&  && ()").readExpression = .ok ("A \"b\" &&  && ()", ctx') ∧
        ctx'.report = {} := by
  have hfirst : ∃ ctx, (atLineText "A 'b' &&& () | if C").readExpression =
      .ok ("A \"b\" &&  && ()", ctx) := by
    have htext : (atLineText "A 'b' &&& () | if C").readExpression.toOption.map Prod.fst =
        some "A \"b\" &&  && ()" := by decide +kernel
    revert htext
    cases (atLineText "A 'b' &&& () | if C").readExpression with
    | error fault => exact fun h => nomatch h
    | ok result => exact fun h => ⟨result.2, by rw [← Option.some.inj h]⟩
  have hquoted : ∀ token ∈ (lineText "A 'b' &&& () | if C").upcoming, ∀ quote text,
      token.lexeme = .quoted quote text → '"' ∉ text.toList := by
    intro token hmem quote text hlexeme
    have hlexemes : Lexeme.scan "A 'b' &&& () | if C".toList =
        [.word "A", .quoted '\'' "b", .char '&', .char '&', .char '&', .char '(', .char ')',
          .char '|', .word "if", .word "C", .lineEnd] := by decide +kernel
    have hmem' := List.mem_map_of_mem (f := Token.lexeme) hmem
    change token.lexeme ∈ (Token.ofLine 1 _).map Token.lexeme at hmem'
    rw [Token.map_lexeme_ofLine, hlexemes, hlexeme] at hmem'
    simp at hmem'
    rw [hmem'.2]
    decide
  obtain ⟨ctx, hread⟩ := hfirst
  refine ⟨ctx, _, hread, readExpression_again (current_atLineText _) (load_lineText _)
    (List.suffix_refl _) hquoted hread (current_atLineText _) (load_lineText _) rfl, rfl⟩

end Kconfig
