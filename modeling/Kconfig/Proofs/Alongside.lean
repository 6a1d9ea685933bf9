import Kconfig.Proofs.Views

/-!
# Files read alongside each other

Two files have the same lines up to some place, and go on with different lines from there. As long
as reading is in front of that place, both files give the same tokens and the same help texts. What
stands there matters only in its first line: a help text ends in front of it in both files if it
begins with a block keyword, or if the file ends there.
-/

namespace Kconfig

/-- The block keywords as words. -/
def BlockKeyword.words : List String :=
  ["config", "menuconfig", "choice", "endchoice", "comment", "menu", "endmenu", "if", "endif",
    "mainmenu", "source", "rsource", "osource", "orsource"]

lemma BlockKeyword.mem_words {word : String} (h : BlockKeyword.ofWord? word ≠ none) :
    word ∈ BlockKeyword.words := by
  unfold BlockKeyword.ofWord? at h
  split at h
  all_goals try decide
  unfold SourceKind.ofKeyword? at h
  split at h
  all_goals try decide
  exact absurd rfl h

namespace Line

/-- The line begins with a block keyword, without indentation. -/
def Leads (line : List Char) : Prop :=
  ∃ (word : String) (rest : List Char), line = word.toList ++ rest ∧ EndsWord rest ∧
    BlockKeyword.ofWord? word ≠ none

variable {line : List Char}

lemma Leads.scan (h : Leads line) : ∃ word front, BlockKeyword.ofWord? word ≠ none ∧
    Lexeme.scan line = .word word :: (front ++ [.lineEnd]) := by
  obtain ⟨word, rest, rfl, hrest, hword⟩ := h
  have hletters : ∀ word ∈ BlockKeyword.words, word.toList ≠ [] ∧
      (∀ c ∈ word.toList, isWordLetter c = true) ∧
        Lexeme.ofWord word.toList = .word word := by decide
  obtain ⟨hne, hletters, hlexeme⟩ := hletters word (BlockKeyword.mem_words hword)
  obtain ⟨front, hfront, -⟩ := Lexeme.scan_eq_append rest
  refine ⟨word, front, hword, ?_⟩
  rw [Lexeme.scan_word hne hletters hrest, hlexeme, hfront]

lemma Leads.column (h : Leads line) :
    Text.isBlankText (raw line) = false ∧ Directive.column (raw line) = 0 := by
  obtain ⟨word, rest, hline, hrest, hword⟩ := h
  have hletters : ∀ word ∈ BlockKeyword.words,
      word.toList.head?.any (fun c => Text.isBlank c = false ∧ c ≠ '#') = true := by decide
  obtain ⟨c, hc, hletter⟩ :=
    (Option.any_eq_true _ _).1 (hletters word (BlockKeyword.mem_words hword))
  obtain ⟨hblank, hhash⟩ := of_decide_eq_true hletter
  obtain ⟨blanks, comment, htext, -, hblanks, hcomment, -⟩ := raw_append line
  have hfirst : line.head? = some c := by
    rw [hline, List.head?_append, hc]
    rfl
  obtain ⟨cs, hcs⟩ : ∃ cs, raw line = c :: cs := by
    cases hraw : raw line with
    | nil =>
      rw [hraw, List.nil_append] at htext
      rw [htext] at hfirst
      cases blanks with
      | nil => exact absurd (hcomment c hfirst) hhash
      | cons b blanks =>
        cases hfirst
        exact absurd (hblanks c List.mem_cons_self) (by simp [hblank])
    | cons a cs =>
      rw [hraw] at htext
      rw [htext] at hfirst
      cases hfirst
      exact ⟨cs, rfl⟩
  have htab : c ≠ '\t' := by
    rintro rfl
    revert hblank
    decide
  refine ⟨by simp [hcs, Text.isBlankText, hblank], ?_⟩
  rw [Directive.column, hcs, Text.expandTabs, Text.expandTabsFrom, if_neg htab]
  split
  all_goals simp [Text.indentation, hblank]

end Line

/-- The lexemes are the last ones of a line. -/
def Remnant (lexemes : List Lexeme) : Prop :=
  lexemes = [] ∨ ∃ front, lexemes = front ++ [.lineEnd] ∧ ∀ lexeme ∈ front, lexeme.isEnd = false

namespace Remnant

variable {lexeme : Lexeme} {lexemes lexemes' : List Lexeme}

lemma scan (line : List Char) : Remnant (Lexeme.scan line) :=
  .inr (Lexeme.scan_eq_append line)

lemma suffix (h : Remnant lexemes) (hsuffix : lexemes' <:+ lexemes) : Remnant lexemes' := by
  rcases h with rfl | ⟨front, rfl, hfront⟩
  · exact .inl (List.suffix_nil.1 hsuffix)
  · rcases List.suffix_concat_iff.1 hsuffix with hnil | ⟨front', hfront', hsuffix'⟩
    · exact .inl hnil
    · exact .inr ⟨front', hfront', fun lexeme hmem => hfront lexeme (hsuffix'.subset hmem)⟩

lemma cons (h : Remnant (lexeme :: lexemes)) :
    Remnant lexemes ∧ lexeme ≠ .fileEnd ∧ (lexeme.isEnd = false → lexemes ≠ []) := by
  refine ⟨h.suffix (List.suffix_cons _ _), ?_⟩
  rcases h with h | ⟨front, hfront, hend⟩
  · cases h
  · cases front with
    | nil =>
      cases hfront
      exact ⟨Lexeme.noConfusion, fun h => Bool.noConfusion h⟩
    | cons a front =>
      cases hfront
      refine ⟨?_, fun _ => List.append_ne_nil_of_right_ne_nil _ (List.cons_ne_nil _ _)⟩
      rintro rfl
      exact nomatch hend _ List.mem_cons_self

end Remnant

/-- Two files with the same lines up to a place from which each goes on with lines of its own. -/
structure Fork where
  file : String
  file' : String
  left : List (List Char)
  right : List (List Char)
  damage : Option Damage
  damage' : Option Damage

namespace Fork

/-- Where the files part, each goes on with a block keyword or ends. The second one does not end
before the first one, and it can be read if the first one can. -/
structure Proper (g : Fork) : Prop where
  left : ∀ line ∈ g.left.head?, Line.Leads line ∧ Line.Plain line
  right : ∀ line ∈ g.right.head?, Line.Leads line ∧ Line.Plain line
  longer : g.right = [] → g.left = []
  damage : g.damage = none → g.damage' = none

/-- The views are of the two files. -/
structure Fits (g : Fork) (v w : View) : Prop where
  file : v.file = g.file
  file' : w.file = g.file'
  damage : v.damage = g.damage
  damage' : w.damage = g.damage'

/-- Reading is at the same place in both files, in front of the one where they part. -/
structure Along (g : Fork) (v w : View) : Prop extends Fits g v w where
  lexemes : w.lexemes = v.lexemes
  remnant : Remnant v.lexemes
  texts : ∃ shared, v.texts = shared ++ g.left ∧ w.texts = shared ++ g.right

/-- Reading is inside a line in front of the place where the files part. -/
structure Inside (g : Fork) (v w : View) : Prop extends Along g v w where
  nonempty : v.lexemes ≠ []

/-- The lines are loaded with which the files part. -/
structure Apart (g : Fork) (v w : View) : Prop extends Fits g v w where
  lexemes : v.lexemes = firstLexemes g.left
  lexemes' : w.lexemes = firstLexemes g.right
  texts : v.texts = g.left.tail
  texts' : w.texts = g.right.tail

def Loaded (g : Fork) (v w : View) : Prop :=
  g.Inside v w ∨ g.Apart v w

/-- Once a line has been loaded in the first file, one is loaded in the second at the same place. -/
structure Meets (g : Fork) (v w : View) : Prop where
  file : v.file = g.file
  file' : w.file = g.file'
  load : ∀ v', v.load = some v' → ∃ w', w.load = some w' ∧ g.Loaded v' w'

variable {g : Fork} {v v' w w' : View} {lexeme : Lexeme}

lemma firstLexemes_ne_nil (texts : List (List Char)) : firstLexemes texts ≠ [] := by
  cases texts with
  | nil => exact List.cons_ne_nil _ _
  | cons line lines => exact Lexeme.scan_ne_nil line

lemma firstLexemes_putBackRaw {texts : List (List Char)}
    (h : ∀ line ∈ texts.head?, Line.Plain line) :
    firstLexemes (TokenStream.putBackRaw texts) = firstLexemes texts := by
  cases texts with
  | nil => rfl
  | cons line lines => exact (Line.scan_raw_eq_iff line).2 (h line rfl)

lemma tail_putBackRaw (texts : List (List Char)) :
    (TokenStream.putBackRaw texts).tail = texts.tail := by
  cases texts <;> rfl

lemma Loaded.fits (h : g.Loaded v w) : g.Fits v w := by
  rcases h with h | h
  · exact h.toFits
  · exact h.toFits

lemma Loaded.meets (h : g.Loaded v w) : g.Meets v w := by
  have hne : v.lexemes ≠ [] ∧ w.lexemes ≠ [] := by
    rcases h with h | h
    · exact ⟨h.nonempty, h.lexemes ▸ h.nonempty⟩
    · rw [h.lexemes, h.lexemes']
      exact ⟨firstLexemes_ne_nil _, firstLexemes_ne_nil _⟩
  refine ⟨h.fits.file, h.fits.file', fun v' hv' => ⟨w, View.load_of_ne_nil hne.2, ?_⟩⟩
  rw [View.load_of_ne_nil hne.1] at hv'
  cases hv'
  exact h

/-- Both files are between lines at the place where they part; a line that has been put back raw
counts as the line itself. -/
lemma Fits.meets (hg : g.Proper) (h : g.Fits v w) (hv : v.lexemes = []) (hw : w.lexemes = [])
    (hleft : firstLexemes v.texts = firstLexemes g.left) (htail : v.texts.tail = g.left.tail)
    (hright : firstLexemes w.texts = firstLexemes g.right) (htail' : w.texts.tail = g.right.tail)
    (hnil : w.texts = [] → v.texts = []) : g.Meets v w := by
  refine ⟨h.file, h.file', fun v' hload => ?_⟩
  obtain ⟨rfl, hdamage⟩ := View.eq_of_load hv hload
  have hdamage' : w.texts = [] → w.damage = none := by
    intro htexts
    rw [h.damage']
    exact hg.damage (h.damage ▸ hdamage (hnil htexts))
  exact ⟨_, View.load_of_nil hw hdamage', .inr
    ⟨⟨h.file, h.file', h.damage, h.damage'⟩, hleft, hright, htail, htail'⟩⟩

lemma Along.meets (hg : g.Proper) (h : g.Along v w) : g.Meets v w := by
  obtain ⟨shared, hv, hw⟩ := h.texts
  by_cases hne : v.lexemes = []
  · cases shared with
    | nil =>
      rw [List.nil_append] at hv hw
      refine h.toFits.meets hg hne (h.lexemes.trans hne) (by rw [hv]) (by rw [hv]) (by rw [hw])
        (by rw [hw]) ?_
      rw [hv, hw]
      exact hg.longer
    | cons line shared =>
      refine ⟨h.file, h.file', fun v' hload => ?_⟩
      obtain ⟨rfl, -⟩ := View.eq_of_load hne hload
      have hw' : w.texts ≠ [] := hw ▸ List.cons_ne_nil _ _
      refine ⟨_, View.load_of_nil (h.lexemes.trans hne) fun hnil => absurd hnil hw', .inl
        { file := h.file, file' := h.file', damage := h.damage, damage' := h.damage',
          lexemes := ?_, remnant := ?_, texts := ⟨shared, ?_, ?_⟩, nonempty := ?_ }⟩
      · rw [hv, hw]
        rfl
      · rw [hv]
        exact .scan line
      · rw [hv]
        rfl
      · rw [hw]
        rfl
      · exact firstLexemes_ne_nil _
  · exact Loaded.meets (.inl ⟨h, hne⟩)

lemma Inside.of_push (h : g.Inside (v.push lexeme) (w.push lexeme)) :
    g.Along v w ∧ lexeme ≠ .fileEnd ∧ (lexeme.isEnd = false → g.Inside v w) := by
  obtain ⟨hremnant, hend, hne⟩ := h.remnant.cons
  have halong : g.Along v w :=
    ⟨⟨h.file, h.file', h.damage, h.damage'⟩, (List.cons.inj h.lexemes).2, hremnant, h.texts⟩
  exact ⟨halong, hend, fun h => ⟨halong, hne h⟩⟩

end Fork

namespace TokenStream

variable {g : Fork} {s s' t t' : TokenStream} {line : List Char} {lines : List (List Char)}

lemma load_of_view (h : s.view.lexemes ≠ []) : s.load = .ok s := by
  rw [load, if_pos fun hnil => h (List.map_eq_nil_iff.2 hnil)]

lemma stopAt_along {α : Type} {read : List Token → Except ReadFailure (Reading α)} {r : Reading α}
    (hread : Blind read) (hleaves : ∀ tokens, LeavesSuffix (read tokens) tokens)
    (h : g.Along s.view t.view) (hr : readDeliverable read s.upcoming = .ok r) :
    ∃ r', readDeliverable read t.upcoming = .ok r' ∧ r'.value = r.value ∧
      g.Along (s.stopAt r.stop).view (t.stopAt r'.stop).view := by
  obtain ⟨r', hr', hvalue, hstop⟩ := (readDeliverable_blind hread).congr h.lexemes.symm hr
  refine ⟨r', hr', hvalue, ?_⟩
  rw [view_stopAt, view_stopAt, hstop]
  exact ⟨⟨h.file, h.file', h.damage, h.damage'⟩, rfl,
    h.remnant.suffix ((readDeliverable_leaves hleaves _ r hr).map Token.lexeme), h.texts⟩

lemma discardLine_of_remnant (h : Remnant s.view.lexemes) (hne : s.view.lexemes ≠ [])
    (hdigits : ∀ lexeme ∈ s.view.lexemes, lexeme.excessDigits? = none) :
    ∃ s', s.discardLine = .ok s' ∧ s'.AtLine ∧ s'.view = { s.view with lexemes := [] } := by
  rcases h with h | ⟨front, hfront, -⟩
  · exact absurd h hne
  · obtain ⟨tokens, ends, hupcoming, -, hends⟩ := List.map_eq_append_iff.1 hfront
    obtain ⟨token, rfl, hlexeme⟩ := List.map_eq_singleton_iff.1 hends
    refine ⟨s.stopAt { token, rest := [], kept := false }, ?_, ⟨rfl, rfl⟩, view_stopAt _ _⟩
    refine discardLine_eq_ok.2 ⟨s, token, load_of_view hne, ?_, ?_, ?_⟩
    · exact fun token hmem => hdigits _ (List.mem_map_of_mem hmem)
    · rw [hupcoming, List.getLast?_concat]
    · rw [hlexeme]
      rfl

lemma digits_of_discardLine (h : s.discardLine = .ok s') (hne : s.view.lexemes ≠ []) :
    ∀ lexeme ∈ s.view.lexemes, lexeme.excessDigits? = none := by
  obtain ⟨t, last, hload, hdigits, -, -⟩ := discardLine_eq_ok.1 h
  cases (load_of_view hne).symm.trans hload
  intro lexeme hmem
  obtain ⟨token, htoken, rfl⟩ := List.mem_map.1 hmem
  exact hdigits token htoken

/-- Raw lines that are taken up to the place where the files part are not taken beyond it. -/
lemma takeLines_to_fork {p : List Char → Bool} {shared : List (List Char)}
    {stop : Option (List Char)} (hg : g.Proper)
    (hp : ∀ line, Line.Leads line → p (Line.raw line) = false) (hs : s.AtLine) (ht : t.AtLine)
    (h : g.Fits s.view t.view) (hstexts : s.lines.texts = shared ++ g.left)
    (httexts : t.lines.texts = shared ++ g.right)
    (hshared : ∀ line ∈ shared, p (Line.raw line) = true)
    (hok : s.takeLines p = .ok (lines, stop, s')) :
    ∃ stop' t', t.takeLines p = .ok (lines, stop', t') ∧
      (∀ l ∈ stop, Directive.column l = 0) ∧ (∀ l ∈ stop', Directive.column l = 0) ∧
        g.Meets s'.view t'.view := by
  have hdamage : g.left = [] → s.lines.damage = none := by
    intro hleft
    by_contra hdamaged
    obtain ⟨damage, hsome⟩ := Option.ne_none_iff_exists'.1 hdamaged
    have hall : ∀ l ∈ s.lines.texts, p (Line.raw l) = true := by
      intro l hl
      rw [hstexts, hleft, List.append_nil] at hl
      exact hshared l hl
    rw [takeLines_damaged hs hall hsome] at hok
    cases hok
  have hdamage' : g.right = [] → t.lines.damage = none := by
    intro hright
    have hleft := hg.longer hright
    exact h.damage'.trans (hg.damage (h.damage.symm.trans (hdamage hleft)))
  obtain ⟨s₁, htake, hat, hview⟩ := takeLines_append hs hstexts hshared
    (fun l hl => hp l (hg.left l hl).1) hdamage
  obtain ⟨t₁, htake', hat', hview'⟩ := takeLines_append ht httexts hshared
    (fun l hl => hp l (hg.right l hl).1) hdamage'
  rw [htake] at hok
  cases hok
  refine ⟨_, t₁, htake', ?_, ?_, ?_⟩
  · intro l hl
    obtain ⟨line, hline, rfl⟩ := Option.map_eq_some_iff.1 hl
    exact (hg.left line hline).1.column.2
  · intro l hl
    obtain ⟨line, hline, rfl⟩ := Option.map_eq_some_iff.1 hl
    exact (hg.right line hline).1.column.2
  · rw [hview, hview']
    refine Fork.Fits.meets hg ⟨h.file, h.file', h.damage, h.damage'⟩
      (List.map_eq_nil_iff.2 hs.upcoming) (List.map_eq_nil_iff.2 ht.upcoming)
      (Fork.firstLexemes_putBackRaw fun l hl => (hg.left l hl).2) (Fork.tail_putBackRaw _)
      (Fork.firstLexemes_putBackRaw fun l hl => (hg.right l hl).2) (Fork.tail_putBackRaw _) ?_
    intro hright
    cases hg' : g.right with
    | nil => rw [hg.longer hg']; rfl
    | cons line lines =>
      rw [hg'] at hright
      cases hright

lemma takeLines_along {p : List Char → Bool} {stop : Option (List Char)} (hg : g.Proper)
    (hp : ∀ line, Line.Leads line → p (Line.raw line) = false) (hs : s.AtLine) (ht : t.AtLine)
    (h : g.Along s.view t.view) (hok : s.takeLines p = .ok (lines, stop, s')) :
    ∃ stop' t', t.takeLines p = .ok (lines, stop', t') ∧
      ((stop' = stop ∧ s'.AtLine ∧ t'.AtLine ∧ g.Along s'.view t'.view) ∨
        ((∀ l ∈ stop, Directive.column l = 0) ∧ (∀ l ∈ stop', Directive.column l = 0) ∧
          g.Meets s'.view t'.view)) := by
  obtain ⟨shared, hstexts, httexts⟩ := h.texts
  let q : List Char → Bool := fun l => p (Line.raw l)
  have hshared := (List.takeWhile_append_dropWhile (p := q) (l := shared)).symm
  have hfront : ∀ l ∈ shared.takeWhile q, p (Line.raw l) = true :=
    fun l hl => List.mem_takeWhile_imp (p := q) hl
  cases hlater : shared.dropWhile q with
  | cons l later =>
    rw [hlater] at hshared
    have hl : p (Line.raw l) = false := by
      have hnot := List.head?_dropWhile_not q shared
      rw [hlater] at hnot
      exact hnot
    rw [hshared, List.append_assoc] at hstexts httexts
    obtain ⟨s₁, htake, hat, hview⟩ := takeLines_append hs hstexts hfront
      (fun l' hl' => by cases hl'; exact hl) (fun hnil => nomatch hnil)
    obtain ⟨t₁, htake', hat', hview'⟩ := takeLines_append ht httexts hfront
      (fun l' hl' => by cases hl'; exact hl) (fun hnil => nomatch hnil)
    rw [htake] at hok
    cases hok
    refine ⟨_, t₁, htake', .inl ⟨rfl, hat, hat', ?_⟩⟩
    rw [hview, hview']
    exact ⟨⟨h.file, h.file', h.damage, h.damage'⟩, h.lexemes, h.remnant,
      Line.raw l :: later, rfl, rfl⟩
  | nil =>
    rw [hlater, List.append_nil] at hshared
    rw [← hshared] at hfront
    obtain ⟨stop', t', htake', hzero, hzero', hmeets⟩ :=
      takeLines_to_fork hg hp hs ht h.toFits hstexts httexts hfront hok
    exact ⟨stop', t', htake', .inr ⟨hzero, hzero', hmeets⟩⟩

lemma readHelp_none {blanks : List (List Char)} {first : Option (List Char)}
    (hdiscard : s.discardLine = .ok t)
    (htake : t.takeLines Text.isBlankText = .ok (blanks, first, t'))
    (hfirst : ∀ line ∈ first, Directive.column line = 0) :
    Directive.readHelp s = .ok (none, t') := by
  refine bind_eq_ok.2 ⟨t, hdiscard, bind_eq_ok.2 ⟨_, htake, ?_⟩⟩
  cases first with
  | none => rfl
  | some line => exact if_pos (hfirst line rfl)

lemma readHelp_some {blanks : List (List Char)} (hdiscard : s.discardLine = .ok t)
    (htake : t.takeLines Text.isBlankText = .ok (blanks, some line, t'))
    (hcolumn : Directive.column line ≠ 0) :
    Directive.readHelp s = do
      let (lines, _, s) ← t'.takeLines fun l =>
        Text.isBlankText l || Directive.column line ≤ Directive.column l
      return (some (Directive.helpText (Directive.column line) lines), s) := by
  rw [Directive.readHelp, hdiscard]
  simp only [bind, Except.bind, htake, if_neg hcolumn]

/-- The help text is the same in both files. -/
theorem readHelp_along {text : Option String} (hg : g.Proper) (h : g.Inside s.view t.view)
    (hok : Directive.readHelp s = .ok (text, s')) :
    ∃ t', Directive.readHelp t = .ok (text, t') ∧ g.Meets s'.view t'.view := by
  have hremnant : Remnant t.view.lexemes := h.lexemes ▸ h.remnant
  have hne : t.view.lexemes ≠ [] := h.lexemes ▸ h.nonempty
  obtain ⟨s₀, hsame, hok'⟩ := bind_eq_ok.1 hok
  have hdigits := digits_of_discardLine hsame h.nonempty
  obtain ⟨s₁, hdiscard, hsat, hsview⟩ := discardLine_of_remnant h.remnant h.nonempty hdigits
  obtain ⟨t₁, hdiscard', htat, htview⟩ :=
    discardLine_of_remnant hremnant hne (h.lexemes ▸ hdigits)
  have halong : g.Along s₁.view t₁.view := by
    rw [hsview, htview]
    exact ⟨⟨h.file, h.file', h.damage, h.damage'⟩, rfl, .inl rfl, h.texts⟩
  rw [hdiscard] at hsame
  cases hsame
  obtain ⟨⟨blanks, first, s₂⟩, htake, -⟩ := bind_eq_ok.1 hok'
  obtain ⟨first', t₂, htake', hends⟩ :=
    takeLines_along hg (fun line hline => hline.column.1) hsat htat halong htake
  rcases hends with ⟨rfl, hsat, htat, halong⟩ | ⟨hzero, hzero', hmeets⟩
  · by_cases hzero : ∀ line ∈ first', Directive.column line = 0
    · rw [readHelp_none hdiscard htake hzero] at hok
      cases hok
      exact ⟨t₂, readHelp_none hdiscard' htake' hzero, halong.meets hg⟩
    · push Not at hzero
      obtain ⟨line, rfl, hcolumn⟩ := hzero
      rw [readHelp_some hdiscard htake hcolumn] at hok
      obtain ⟨⟨lines, stop, s₃⟩, htext, hok⟩ := bind_eq_ok.1 hok
      cases pure_eq_ok.1 hok
      obtain ⟨stop', t₃, htext', hends⟩ := takeLines_along hg (fun line hline => by
        simp [hline.column.1, hline.column.2, hcolumn]) hsat htat halong htext
      refine ⟨t₃, ?_, ?_⟩
      · rw [readHelp_some hdiscard' htake' hcolumn, htext']
        rfl
      · rcases hends with ⟨-, -, -, halong⟩ | ⟨-, -, hmeets⟩
        · exact halong.meets hg
        · exact hmeets
  · rw [readHelp_none hdiscard htake hzero] at hok
    cases hok
    exact ⟨t₂, readHelp_none hdiscard' htake' hzero', hmeets⟩

end TokenStream

end Kconfig
