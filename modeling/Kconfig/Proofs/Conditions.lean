import Kconfig.Proofs.Conditions.NormalForm

/-!
# The structure of normalised conditions

A condition is read twice: from the tokens of its line into a normal form, and later from the normal
form into its structure. The two readings have their own ideas of what an operand is. They agree on
operands that are `Faithful`; the others are words such as `0x1G`, which begin like a hexadecimal
number and are none, and quoted texts that contain double quotes or tabs.
-/

namespace Kconfig

open Text (isBlank isHexDigit isWideHexDigit)

namespace Structure

section Symbols

variable {c : Char} {text rest : List Char}

lemma isOperandChar_of_isWordLetter (h : isWordLetter c = true) : isOperandChar c = true := by
  have hascii : c.toNat < 128 := by
    rw [isWordLetter_iff] at h
    omega
  rw [isOperandChar, Text.isWordChar, if_pos hascii]
  rw [isWordLetter] at h
  revert h
  cases c.isAlphanum <;> cases c == '-' <;> cases c == '_' <;> simp

lemma isWideHexDigit_of_isWordLetter (h : isWordLetter c = true) :
    isWideHexDigit c = isHexDigit c := by
  have hascii : c.toNat < 128 := by
    rw [isWordLetter_iff] at h
    omega
  have hzeros : (Text.zeros.any fun z => z ≤ c.toNat && c.toNat < z + 10) = false := by
    rw [List.any_eq_false]
    intro z hz
    have hlarge : ∀ z ∈ Text.zeros, 128 ≤ z := by decide
    have := hlarge z hz
    simp only [Bool.and_eq_true, decide_eq_true_eq]
    omega
  rw [isWideHexDigit, Text.isDecimalDigit, hzeros, isHexDigit]
  cases c.isDigit <;> simp

lemma scan_of_blank (h : text.dropWhile isSpace = []) : scan text = some [] := by
  rw [scan.eq_def]
  split
  · rfl
  · rename_i hcons
    rw [h] at hcons
    cases hcons

lemma scan_of_cons (h : text.dropWhile isSpace = c :: rest) :
    scan text = (splitSymbol (c :: rest)).bind fun (symbol, rest) =>
      (scan rest).map (symbol :: ·) := by
  rw [scan.eq_def]
  split
  · rename_i hnil
    rw [h] at hnil
    cases hnil
  · rename_i d rest' hcons
    rw [h] at hcons
    cases hcons
    split
    · rename_i hnone
      rw [hnone]
      rfl
    · rename_i hsome
      rw [hsome]
      rfl

lemma scan_space (hc : isSpace c = true) : scan (c :: text) = scan text := by
  have hdrop : (c :: text).dropWhile isSpace = text.dropWhile isSpace :=
    List.dropWhile_cons_of_pos hc
  cases h : text.dropWhile isSpace with
  | nil => rw [scan_of_blank h, scan_of_blank (hdrop.trans h)]
  | cons d rest => rw [scan_of_cons h, scan_of_cons (hdrop.trans h)]

lemma scan_symbol {symbol : Symbol} (hc : isSpace c = false)
    (h : splitSymbol (c :: text) = some (symbol, rest)) :
    scan (c :: text) = (scan rest).map (symbol :: ·) := by
  rw [scan_of_cons (List.dropWhile_cons_of_neg (by simp [hc])), h, Option.bind_some]

/-- A text does not go on an operand in front of it. -/
def EndsOperand (text : List Char) : Prop :=
  ∀ c ∈ text.head?, isOperandChar c = false ∧ isWideHexDigit c = false

lemma splitQuoted_closed (hc : c = '"' ∨ c = '\'') (h : c ∉ text) :
    splitQuoted (c :: text ++ c :: rest) = some (c :: text ++ [c], rest) := by
  have htext : ∀ d ∈ text, decide (d ≠ c) = true :=
    fun d hd => decide_eq_true fun heq => h (heq ▸ hd)
  have hrest : ∀ d ∈ (c :: rest).head?, decide (d ≠ c) = false := by
    rintro d ⟨⟩
    exact decide_eq_false fun hne => hne rfl
  rw [List.cons_append, splitQuoted, if_pos hc, dropWhile_append htext hrest,
    takeWhile_append htext hrest]

lemma splitQuoted_word (hc : isWordLetter c = true) : splitQuoted (c :: text) = none := by
  have hquote := not_isQuote_of_isWordLetter hc
  simp only [isQuote, Bool.or_eq_false_iff, beq_eq_false_iff_ne] at hquote
  rw [splitQuoted, if_neg (by simp [hquote])]

lemma splitHex_word {word : List Char} {ne_nil letters ne_if convertible}
    (h : (Operand.word word ne_nil letters ne_if convertible).Faithful) (hrest : EndsOperand rest) :
    splitHex (word ++ rest) = some (word, rest) ∨ splitHex (word ++ rest) = none := by
  by_cases hhex : ∃ x digits, word = '0' :: x :: digits ∧ (x = 'x' ∨ x = 'X')
  · obtain ⟨x, digits, rfl, hx⟩ := hhex
    rw [List.cons_append, List.cons_append, splitHex]
    have hwide : ∀ c ∈ digits, isWideHexDigit c = isHexDigit c := by
      intro c hc
      exact isWideHexDigit_of_isWordLetter (letters c (by simp [hc]))
    have hend : ∀ c ∈ rest.head?, isWideHexDigit c = false := fun c hc => (hrest c hc).2
    by_cases hfirst : ∀ c ∈ digits.head?, isHexDigit c = true
    · have hdigits : ∀ c ∈ digits, isWideHexDigit c = true := by
        intro c hc
        rw [hwide c hc]
        exact h x digits rfl hx hfirst c hc
      rw [takeWhile_append hdigits hend, dropWhile_append hdigits hend]
      split
      · exact .inl rfl
      · exact .inr rfl
    · have hnil : (digits ++ rest).takeWhile isWideHexDigit = [] := by
        cases digits with
        | nil => exact absurd (fun c hc => nomatch hc) hfirst
        | cons c digits =>
          have hc : isWideHexDigit c = false := by
            rw [hwide c List.mem_cons_self]
            by_contra hc
            rw [Bool.not_eq_false] at hc
            exact hfirst (by rintro d ⟨⟩; exact hc)
          rw [List.cons_append, List.takeWhile_cons_of_neg (by simp [hc])]
      exact .inr (if_neg fun hand => hand.2 hnil)
  · refine .inr ?_
    unfold splitHex
    split
    · rename_i x digits heq
      have hx : ¬(x = 'x' ∨ x = 'X') := by
        intro hx
        match word, heq with
        | [_], heq =>
          obtain ⟨-, rfl⟩ := List.cons.inj heq
          have := (hrest x rfl).1
          obtain rfl | rfl := hx <;> cases this
        | _ :: _ :: word, heq =>
          cases heq
          exact hhex ⟨x, word, rfl, hx⟩
      exact if_neg fun hand => hx hand.1
    · rfl

lemma splitWord_word {word : List Char} (hne : word ≠ [])
    (hword : ∀ c ∈ word, isWordLetter c = true) (hrest : EndsOperand rest) :
    splitWord (word ++ rest) = some (word, rest) := by
  obtain ⟨c, word, rfl⟩ := List.exists_cons_of_ne_nil hne
  have hletters : ∀ d ∈ c :: word, isOperandChar d = true :=
    fun d hd => isOperandChar_of_isWordLetter (hword d hd)
  obtain ⟨hc, htail⟩ := List.forall_mem_cons.1 hletters
  have hend : ∀ d ∈ rest.head?, isOperandChar d = false := fun d hd => (hrest d hd).1
  rw [List.cons_append, splitWord, if_pos hc, takeWhile_append htail hend,
    dropWhile_append htail hend]

lemma splitOperand_normal {o : Operand} (ho : o.Faithful) (hrest : EndsOperand rest) :
    splitOperand (o.normal ++ rest) = some (o.normal, rest) := by
  cases o with
  | word word ne_nil letters ne_if =>
    have hquoted : splitQuoted (word ++ rest) = none := by
      obtain ⟨c, word, rfl⟩ := List.exists_cons_of_ne_nil ne_nil
      exact splitQuoted_word (letters c List.mem_cons_self)
    rw [Operand.normal, splitOperand, hquoted]
    dsimp only
    obtain hhex | hhex := splitHex_word ho hrest
    · rw [hhex]
    · rw [hhex]
      exact splitWord_word ne_nil letters hrest
  | quoted quote word quote_isQuote closed =>
    have hassoc : '"' :: word ++ ['"'] ++ rest = '"' :: word ++ '"' :: rest := by simp
    rw [Operand.normal, splitOperand, hassoc, splitQuoted_closed (.inl rfl) ho.1]

lemma splitSymbol_operand (hc : isWordLetter c = true ∨ c = '"') :
    splitSymbol (c :: text) =
      (splitOperand (c :: text)).map fun (text, rest) => (.operand text, rest) := by
  unfold splitSymbol
  split
  case h_12 => rfl
  all_goals
    rename_i heq
    cases heq
    obtain hc | hc := hc <;> cases hc

lemma scan_operand {o : Operand} (ho : o.Faithful) (hrest : EndsOperand rest) :
    scan (o.normal ++ rest) = (scan rest).map (.operand o.normal :: ·) := by
  have hsplit := splitOperand_normal ho hrest
  obtain ⟨c, text, hnormal, hc⟩ : ∃ c text, o.normal = c :: text ∧
      (isWordLetter c = true ∨ c = '"') := by
    cases o with
    | word word ne_nil letters ne_if =>
      obtain ⟨c, word, rfl⟩ := List.exists_cons_of_ne_nil ne_nil
      exact ⟨c, word, rfl, .inl (letters c List.mem_cons_self)⟩
    | quoted quote word quote_isQuote closed => exact ⟨'"', _, rfl, .inr rfl⟩
  have hspace : isSpace c = false := by
    obtain hc | rfl := hc
    · rw [isWordLetter_iff] at hc
      have h : ∀ d : Char, d.toNat ≤ 32 → c ≠ d := by
        rintro d hd rfl
        omega
      simp [isSpace, h]
    · rfl
  rw [hnormal, List.cons_append] at hsplit ⊢
  refine scan_symbol hspace ?_
  rw [splitSymbol_operand hc, hsplit]
  rfl

lemma endsOperand_cons (hc : isOperandChar c = false ∧ isWideHexDigit c = false)
    (text : List Char) : EndsOperand (c :: text) := by
  rintro d ⟨⟩
  exact hc

lemma endsOperand_comparison (operator : Comparison) (rest : List Char) :
    EndsOperand (operator.written.toList ++ rest) := by
  cases operator <;> exact endsOperand_cons (by decide) _

lemma splitSymbol_single (hrest : ∀ c ∈ rest.head?, c ≠ '=') :
    splitSymbol ('!' :: rest) = some (.not, rest) ∧
      splitSymbol ('<' :: rest) = some (.comparison .lt, rest) ∧
        splitSymbol ('>' :: rest) = some (.comparison .gt, rest) := by
  have hne : ∀ text, rest ≠ '=' :: text := by
    rintro text rfl
    exact hrest '=' rfl rfl
  refine ⟨?_, ?_, ?_⟩
  all_goals
    unfold splitSymbol
    split <;> simp_all

lemma scan_comparison (operator : Comparison) (hrest : ∀ c ∈ rest.head?, c ≠ '=') :
    scan (operator.written.toList ++ rest) = (scan rest).map (.comparison operator :: ·) := by
  obtain ⟨-, hlt, hgt⟩ := splitSymbol_single hrest
  cases operator with
  | eq => exact scan_symbol rfl rfl
  | ne => exact scan_symbol rfl rfl
  | le => exact scan_symbol rfl rfl
  | ge => exact scan_symbol rfl rfl
  | lt => exact scan_symbol rfl hlt
  | gt => exact scan_symbol rfl hgt

lemma map_append_map (front front' : List Symbol) (symbols : Option (List Symbol)) :
    (symbols.map (front' ++ ·)).map (front ++ ·) = symbols.map ((front ++ front') ++ ·) := by
  cases symbols with
  | none => rfl
  | some symbols => simp

/-- The normal form of a formula is cut into its symbols. -/
theorem scan_normal {e : Formula Operand} (he : e.Faithful) (hrest : EndsOperand rest) :
    scan (e.normal ++ rest) = (scan rest).map (e.symbols Operand.normal ++ ·) := by
  have hequals : ∀ (e : Formula Operand) (rest : List Char),
      ∀ c ∈ (e.normal ++ rest).head?, c ≠ '=' := by
    intro e rest
    obtain ⟨c, text, hnormal, hc⟩ := e.exists_normal_eq_cons
    rw [hnormal]
    rintro d ⟨⟩
    exact hc.ne_equals
  induction e generalizing rest with
  | operand o => exact scan_operand (he o List.mem_cons_self) hrest
  | not e ih =>
    rw [Formula.normal, List.cons_append, scan_symbol rfl (splitSymbol_single (hequals e rest)).1,
      ih he hrest, Formula.symbols]
    exact map_append_map [.not] _ _
  | compare operator l r ihl ihr =>
    obtain ⟨hl, hr⟩ := List.forall_mem_append.1 he
    rw [Formula.normal, List.append_assoc, List.append_assoc,
      ihl hl (endsOperand_comparison operator _), scan_comparison operator (hequals r rest),
      ihr hr hrest, Formula.symbols]
    exact (congrArg _ (map_append_map [.comparison operator] _ _)).trans (map_append_map _ _ _)
  | and l r ihl ihr =>
    obtain ⟨hl, hr⟩ := List.forall_mem_append.1 he
    have hend : EndsOperand (" && ".toList ++ (r.normal ++ rest)) :=
      endsOperand_cons (by decide) _
    have hand : scan (" && ".toList ++ (r.normal ++ rest)) =
        (scan (r.normal ++ rest)).map (.and :: ·) := by
      refine (scan_space rfl).trans ((scan_symbol rfl rfl).trans ?_)
      exact congrArg _ (scan_space rfl)
    rw [Formula.normal, List.append_assoc, List.append_assoc, ihl hl hend, hand, ihr hr hrest,
      Formula.symbols]
    exact (congrArg _ (map_append_map [.and] _ _)).trans (map_append_map _ _ _)
  | or l r ihl ihr =>
    obtain ⟨hl, hr⟩ := List.forall_mem_append.1 he
    have hend : EndsOperand (" || ".toList ++ (r.normal ++ rest)) :=
      endsOperand_cons (by decide) _
    have hor : scan (" || ".toList ++ (r.normal ++ rest)) =
        (scan (r.normal ++ rest)).map (.or :: ·) := by
      refine (scan_space rfl).trans ((scan_symbol rfl rfl).trans ?_)
      exact congrArg _ (scan_space rfl)
    rw [Formula.normal, List.append_assoc, List.append_assoc, ihl hl hend, hor, ihr hr hrest,
      Formula.symbols]
    exact (congrArg _ (map_append_map [.or] _ _)).trans (map_append_map _ _ _)
  | group e ih =>
    have hend : EndsOperand ([')'] ++ rest) := endsOperand_cons (by decide) _
    have hclosing : scan ([')'] ++ rest) = (scan rest).map (.closing :: ·) := scan_symbol rfl rfl
    have hopening : scan ('(' :: (e.normal ++ ([')'] ++ rest))) =
        (scan (e.normal ++ ([')'] ++ rest))).map (.opening :: ·) := scan_symbol rfl rfl
    rw [Formula.normal, List.cons_append, List.append_assoc, hopening, ih he hend, hclosing,
      Formula.symbols]
    refine (congrArg _ (map_append_map _ [.closing] _)).trans ?_
    exact map_append_map [.opening] _ _

end Symbols

lemma expandTabsFrom_eq {text : List Char} (h : '\t' ∉ text) (column : Nat) :
    Text.expandTabsFrom column text = text := by
  induction text generalizing column with
  | nil => rfl
  | cons c text ih =>
    obtain ⟨hc, htext⟩ := List.ne_and_not_mem_of_not_mem_cons h
    rw [Text.expandTabsFrom, if_neg (Ne.symm hc), ih htext, ih htext, ite_self]

lemma tab_not_mem_normal {e : Formula Operand} (he : e.Faithful) : '\t' ∉ e.normal := by
  induction e with
  | operand o =>
    have ho := he o List.mem_cons_self
    cases o with
    | word text ne_nil letters ne_if convertible =>
      intro htab
      have := letters _ htab
      cases this
    | quoted quote text quote_isQuote closed =>
      have := ho.2
      simp [Formula.normal, Operand.normal, this]
  | not e ih => simpa [Formula.normal] using ih he
  | compare operator l r ihl ihr =>
    obtain ⟨hl, hr⟩ := List.forall_mem_append.1 he
    have hoperator : '\t' ∉ operator.written.toList := by cases operator <;> decide
    simp [Formula.normal, ihl hl, ihr hr, hoperator]
  | and l r ihl ihr =>
    obtain ⟨hl, hr⟩ := List.forall_mem_append.1 he
    have hand : '\t' ∉ " && ".toList := by decide
    simp only [Formula.normal, List.mem_append, ihl hl, ihr hr, hand, or_self, not_false_eq_true]
  | or l r ihl ihr =>
    obtain ⟨hl, hr⟩ := List.forall_mem_append.1 he
    have hor : '\t' ∉ " || ".toList := by decide
    simp only [Formula.normal, List.mem_append, ihl hl, ihr hr, hor, or_self, not_false_eq_true]
  | group e ih => simpa [Formula.normal] using ih he

/-- The structure that is read from the normal form of a formula is that of the formula. -/
theorem ofText?_normal {e : Formula Operand} (hallowed : e.Allowed) (he : e.Faithful) :
    ofText? e.normal = some (e.toStructure Operand.normal) := by
  have hend : EndsOperand [] := fun c hc => nomatch hc
  have hnil : scan [] = some [] := scan_of_blank rfl
  have hscan := scan_normal he hend
  rw [List.append_nil, hnil, Option.map_some, List.append_nil] at hscan
  rw [ofText?, Text.expandTabs, expandTabsFrom_eq (tab_not_mem_normal he), hscan,
    Option.bind_some, build_eq Operand.normal hallowed]

end Structure

lemma Expression.readFrom_stop {pieces : Expression.Pieces} {stop : Token} {rest : List Token}
    (hstop : stop.lexeme = .lineEnd ∨ stop.lexeme = .word "if") :
    Expression.readFrom [] pieces (stop :: rest) =
      .ok { value := .ofList pieces.result, stop := { token := stop, rest } } := by
  obtain ⟨lexeme, n⟩ := stop
  cases rest with
  | nil => obtain rfl | rfl := hstop <;> rfl
  | cons next rest => obtain rfl | rfl := hstop <;> rfl

/-- A condition that is spelled in a line, up to the end of the line or an `if`, is read into its
normal form and nothing else happens. If its operands are faithful, then the normal form has the
structure of the condition, with the operands as they are, and every other condition with this
normal form has it as well. -/
theorem readExpression_keeps_structure {text tail : List Char} {e : Formula Operand}
    (hspells : Spells text e) (hallowed : e.Allowed) {ctx : Context} {s : TokenStream} {n : Nat}
    {stop : Token} {rest : List Token} (hcurrent : ctx.current = .ok s)
    (hupcoming : s.upcoming = Token.ofLine n (text ++ tail)) (htail : EndsWord tail)
    (hrest : Token.ofLine n tail = stop :: rest)
    (hstop : stop.lexeme = .lineEnd ∨ stop.lexeme = .word "if") :
    ctx.readExpression =
        .ok (.ofList e.normal, ctx.setCurrent (s.stopAt { token := stop, rest })) ∧
      (e.Faithful → Structure.ofText? e.normal = some (e.toStructure Operand.normal) ∧
        (e.toStructure Operand.normal).leaves = e.operands.map (.ofList <| Operand.normal ·) ∧
          ∀ e' : Formula Operand, e'.Allowed → e'.Faithful → e'.normal = e.normal →
            e'.toStructure Operand.normal = e.toStructure Operand.normal ∧
              e'.operands.map Operand.normal = e.operands.map Operand.normal) := by
  constructor
  · have htokens : s.upcoming = e.lexemes.map (Token.mk · n) ++ stop :: rest := by
      rw [hupcoming, Token.ofLine, hspells.scan_append htail, List.map_append, ← hrest]
      rfl
    have hread : readDeliverable Expression.read s.upcoming =
        .ok { value := .ofList e.normal, stop := { token := stop, rest } } := by
      rw [htokens, List.append_cons]
      refine readDeliverable_append ?_ fun rest => ?_
      · refine List.forall_mem_append.2 ⟨e.deliverable_lexemes n, List.forall_mem_singleton.2 ?_⟩
        obtain ⟨lexeme, n⟩ := stop
        obtain rfl | rfl := hstop <;> rfl
      · rw [List.append_assoc, List.singleton_append, Expression.read,
          Expression.readFrom_lexemes e n rfl (List.cons_ne_nil _ _),
          Expression.readFrom_stop hstop, Expression.Pieces.result, Expression.Pieces.put,
          List.nil_append, e.trim_normal]
    have hload : s.load = .ok s := by
      have hne : s.upcoming ≠ [] := by simp [htokens]
      rw [TokenStream.load, if_pos hne]
    have hlocation : ctx.location = .ok s.location := by
      rw [Context.location, hcurrent]
      rfl
    have hline : ctx.readLine Expression.read =
        .ok ({ value := .ofList e.normal, stop := { token := stop, rest } },
          ctx.setCurrent (s.stopAt { token := stop, rest })) :=
      Context.readLine_eq_ok.2 ⟨s, s, hcurrent, hload, hread, rfl⟩
    rw [Context.readExpression, Context.readNoting, hlocation, hline]
    rfl
  · intro he
    have hstructure := Structure.ofText?_normal hallowed he
    refine ⟨hstructure, e.leaves_toStructure Operand.normal, ?_⟩
    intro e' hallowed' he' hnormal
    have hstructure' := Structure.ofText?_normal hallowed' he'
    rw [hnormal, hstructure] at hstructure'
    have hsame := (Option.some.inj hstructure').symm
    refine ⟨hsame, ?_⟩
    have hleaves := congrArg Structure.leaves hsame
    rw [Formula.leaves_toStructure, Formula.leaves_toStructure] at hleaves
    have htexts := congrArg (List.map String.toList) hleaves
    rw [List.map_map, List.map_map] at htexts
    simpa [Function.comp_def] using htexts

/-- The run that has a line of its only file to read. -/
def atLineText (line : String) : Context where
  root := "."
  files := [{ lines := { file := "K", rest := [] }, rest := Token.ofLine 1 line.toList }]

/-- The comparison binds tighter than the `!` in front of it. -/
theorem readExpression_keeps_structure_negated : ∃ ctx,
    (atLineText "!A = 'x' if B").readExpression = .ok ("!A=\"x\"", ctx) ∧
      Structure.ofText? "!A=\"x\"".toList =
        some (.negation (.comparison (.operand "A") [(.eq, .operand "\"x\"")])) := by
  let symbol : Operand := .word "A".toList (by decide) (by decide) (by decide) (by decide)
  let text : Operand := .quoted '\'' "x".toList rfl (by decide)
  have hleft : Spells "!A ".toList (.not (.operand symbol)) :=
    .after ' ' rfl (.not (.operand symbol))
  have hright : Spells " 'x'".toList (.operand text) := .before ' ' rfl (.operand text)
  have hspells : Spells "!A = 'x'".toList (.compare .eq (.not (.operand symbol)) (.operand text)) :=
    .compare .eq hleft hright
  have hfaithful : ∀ o ∈ [symbol, text], o.Faithful := by
    refine List.forall_mem_cons.2 ⟨?_, List.forall_mem_singleton.2 ?_⟩
    · intro x digits h
      cases h
    · exact ⟨by decide, by decide⟩
  have hcurrent : (atLineText "!A = 'x' if B").current =
      .ok { lines := { file := "K", rest := [] }, rest := Token.ofLine 1 "!A = 'x' if B".toList } :=
    rfl
  have htail : EndsWord " if B".toList := endsWord_cons rfl _
  have hrest : Token.ofLine 1 " if B".toList =
      ⟨.word "if", 1⟩ :: [⟨.word "B", 1⟩, ⟨.lineEnd, 1⟩] := by decide +kernel
  obtain ⟨hread, hstructure⟩ := readExpression_keeps_structure hspells ⟨trivial, trivial, rfl⟩
    hcurrent rfl htail hrest (.inr rfl)
  exact ⟨_, hread, (hstructure hfaithful).1⟩

/-- Normal forms of operands that are not faithful: a word that cannot be read back, a tab that
becomes spaces, and a quoted text that becomes a comparison. -/
theorem normal_loses_structure :
    (∃ e, Spells "0x1G".toList e ∧ e.Allowed ∧
      (Structure.ofText? e.normal).map Structure.leaves = none) ∧
    (∃ e, Spells "'a\tb'".toList e ∧ e.Allowed ∧ e.operands.map Operand.normal =
        ["\"a\tb\"".toList] ∧
      (Structure.ofText? e.normal).map Structure.leaves = some ["\"a      b\""]) ∧
    (∃ e, Spells "'a\"=\"b'".toList e ∧ e.Allowed ∧ e.operands.map Operand.normal =
        ["\"a\"=\"b\"".toList] ∧
      (Structure.ofText? e.normal).map Structure.leaves = some ["\"a\"", "\"b\""]) := by
  let word : Operand := .word "0x1G".toList (by decide) (by decide) (by decide) (by decide)
  let tab : Operand := .quoted '\'' "a\tb".toList rfl (by decide)
  let quotes : Operand := .quoted '\'' "a\"=\"b".toList rfl (by decide)
  refine ⟨⟨.operand word, .operand word, trivial, ?_⟩,
    ⟨.operand tab, .operand tab, trivial, rfl, ?_⟩,
    ⟨.operand quotes, .operand quotes, trivial, rfl, ?_⟩⟩
  all_goals decide +kernel

end Kconfig
