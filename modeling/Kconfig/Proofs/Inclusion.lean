import Kconfig.Proofs.Inclusion.Stacks

/-!
# Inclusion

Including a file is putting its lines in the place of the line that includes it. The two runs are
alongside each other up to that line. From there the one reads the included file, and the other one
the same lines in the top-level file; at the end of the included file both go on with what follows
in the top-level file. The end of a file ends what is being read as a block keyword does, and so
both places where the files part are passed without a difference.

The lines at these places have to be the same when help texts have read them raw and put them back.
-/

namespace Kconfig

open Context

namespace Inlining

variable {fs fs' : FileSystem} {settings : Settings} {i : Inlining fs fs' settings}
  {k : Nat} {low low' : List TokenStream}

section Step

variable {a b : State} {p : Progress} {token token' : Token} {ctx ctx' : Context} {g : Fork}

lemma lexeme_of_parted (hleft : g.left = []) (h : Parted g low low' a b token token' ctx ctx') :
    token.lexeme = .fileEnd ∧ (g.right = [] → token'.lexeme = .fileEnd) := by
  obtain ⟨t, t', -, -, -, hapart⟩ := h.ctx.current
  refine ⟨?_, fun hright => ?_⟩
  · have hlexemes := hapart.lexemes
    rw [hleft] at hlexemes
    exact (List.cons.inj hlexemes).1
  · have hlexemes := hapart.lexemes'
    rw [hright] at hlexemes
    exact (List.cons.inj hlexemes).1

lemma close_of_parted (habreast : Abreast fs fs' g k low low') (hleft : g.left = [])
    (hright : g.right = []) (hframes : State.Framed k a b)
    (h : Parted g low low' a b token token' ctx ctx') (hkind : a.frame.entry.kind = .menu)
    (htop : a.frame.isTop = true) (hdepth : ctx.depth ≤ a.frame.depth) (hscope : ctx.scope = []) :
    ∃ p', b.step fs' = .ok p' ∧ Progress.Twins k (Over g.Meets low low') (a.close ctx) p' := by
  have halong : Context.Twins (Over g.Meets low low') ctx ctx' := by
    refine h.ctx.over_mono fun v w hvw => Fork.Along.meets habreast.proper ?_
    have hlexemes := hvw.lexemes
    have hlexemes' := hvw.lexemes'
    have htexts : v.texts = g.left.tail := hvw.texts
    have htexts' : w.texts = g.right.tail := hvw.texts'
    rw [hleft] at hlexemes htexts
    rw [hright] at hlexemes' htexts'
    refine ⟨⟨hvw.file, hvw.file', hvw.damage, hvw.damage'⟩, ?_, .inl (List.cons.inj hlexemes).2, [],
      ?_, ?_⟩
    · rw [(List.cons.inj hlexemes).2, (List.cons.inj hlexemes').2]
    · rw [htexts, hleft]
      rfl
    · rw [htexts', hright]
      rfl
  have hdepth' : ctx'.depth ≤ b.frame.depth := by
    obtain ⟨ha, hb⟩ := h.ctx.depth
    have hlow := habreast.length
    rw [hframes.frame.depth]
    omega
  refine ⟨_, State.step_of_takes h.next' (.topEnd ((lexeme_of_parted hleft h).2 hright)
    ((Entry.kind_of_unlocated hframes.frame.entry).trans hkind) (hframes.frame.isTop.trans htop)
    hdepth' (h.ctx.scope.trans hscope)), hframes.close halong⟩

lemma step_over {file : String} {damage : Option Damage} (hbelow : i.Stacks k low low')
    (h : State.Twins k (Over (same file damage).Meets low low') a b)
    (hnew : ∀ name, p.ctx.visited = a.ctx.visited ++ [name] →
      fs'.look (Path.join a.ctx.root name) = fs.look (Path.join a.ctx.root name))
    (hstep : a.step fs = .ok p) :
    ∃ p', b.step fs' = .ok p' ∧ Progress.Twins k (i.Stacks k) p p' := by
  have habreast := abreast_over hbelow file damage
  rcases h.step habreast hnew hstep with ⟨p', hstep', hp⟩ | ⟨token, token', ctx, ctx', hparted,
    hblock, htakes⟩
  · exact ⟨p', hstep', hp.mono fun x y => Stacks.of_ahead fun hst => .above hst hbelow⟩
  · obtain ⟨hlex, hlex'⟩ := lexeme_of_parted rfl hparted
    rcases htakes.fileEnd_eq hblock hlex with ⟨rfl, hdepth⟩ | ⟨rfl, hkind, htop, hdepth, hscope⟩
    · have hdepth' : b.frame.depth < ctx'.depth := by
        obtain ⟨ha, hb⟩ := hparted.ctx.depth
        have hlow := habreast.length
        have hpos := List.length_pos_iff.2 hbelow.ne_nil
        rw [h.frame.depth]
        omega
      rw [← Entry.kind_of_unlocated h.frame.entry] at hblock
      obtain ⟨t, t', ht, ht', -⟩ := hparted.ctx.files
      refine ⟨_, State.step_of_takes hparted.next' (.fileEnd (hlex' rfl) hblock hdepth'),
        h.toFramed.goOn { hparted.ctx with files := ?_ }⟩
      rw [closeFile, closeFile, ht, ht']
      exact hbelow
    · obtain ⟨p', hstep', hp⟩ :=
        close_of_parted habreast rfl rfl h.toFramed hparted hkind htop hdepth hscope
      refine ⟨p', hstep', hp.mono ?_⟩
      rintro x y ⟨s, t, rfl, rfl, hst⟩
      exact .above hst hbelow

/-- Behind the inclusion both runs end at the end of the top-level file. -/
lemma step_behind (h : State.Twins 0 (Over i.behind.Meets [] []) a b)
    (hpos : 0 < a.frame.depth)
    (hnew : ∀ name, p.ctx.visited = a.ctx.visited ++ [name] →
      fs'.look (Path.join a.ctx.root name) = fs.look (Path.join a.ctx.root name))
    (hstep : a.step fs = .ok p) :
    ∃ p', b.step fs' = .ok p' ∧ Progress.Twins 0 (i.Stacks 0) p p' := by
  rcases h.step i.abreast_behind hnew hstep with ⟨p', hstep', hp⟩ | ⟨token, token', ctx, ctx',
    hparted, hblock, htakes⟩
  · exact ⟨p', hstep', hp.mono fun x y => Stacks.of_ahead fun hst => .behind hst⟩
  · obtain ⟨hlex, -⟩ := lexeme_of_parted rfl hparted
    rcases htakes.fileEnd_eq hblock hlex with ⟨rfl, hdepth⟩ | ⟨rfl, hkind, htop, hdepth, hscope⟩
    · obtain ⟨ha, -⟩ := hparted.ctx.depth
      rw [List.length_nil] at ha
      omega
    · obtain ⟨p', hstep', hp⟩ :=
        close_of_parted i.abreast_behind rfl rfl h.toFramed hparted hkind htop hdepth hscope
      refine ⟨p', hstep', hp.mono ?_⟩
      rintro x y ⟨s, t, rfl, rfl, hst⟩
      exact .behind hst

lemma load_of_parted {R : View → View → Prop} (h : Parted g low low' a b token token' ctx ctx')
    (hfiles : Over R low low' a.ctx.files b.ctx.files) :
    ∃ s t w, ctx = a.ctx.setCurrent s ∧ ctx.files = s :: low ∧ b.ctx.files = t :: low' ∧
      t.view.load = some w ∧ g.Apart (s.view.push token.lexeme) w := by
  obtain ⟨s₀, t₀, hs₀, ht₀, -⟩ := hfiles
  obtain ⟨s, t, hs, ht, hapart⟩ := h.ctx.files
  obtain ⟨s₁, s₂, below, -, -, hs₂, hctx⟩ := Context.next_eq_ok h.next
  obtain ⟨t₁, t₂, below', ht₁, hnext, ht₂, -⟩ := Context.next_eq_ok h.next'
  rw [ht₀] at ht₁
  cases ht₁
  rw [hs] at hs₂
  cases hs₂
  rw [ht] at ht₂
  cases ht₂
  exact ⟨s, t₀, _, hctx, hs, ht₀, TokenStream.view_of_next hnext, hapart⟩

/-- The first run opens the included file, and the second one has its lines in front of it. -/
lemma step_opening (hplain : i.Plain) (h : State.Twins 0 (Over i.opening.Meets [] []) a b)
    (hroot : a.ctx.root = settings.root) (hdepths : ∀ f ∈ a.frame :: a.outer, f.depth ≤ a.ctx.depth)
    (hnew : ∀ name, p.ctx.visited = a.ctx.visited ++ [name] →
      fs'.look (Path.join a.ctx.root name) = fs.look (Path.join a.ctx.root name))
    (hstep : a.step fs = .ok p) :
    (∃ p', b.step fs' = .ok p' ∧ Progress.Twins 0 (i.Stacks 0) p p') ∨
      ∃ t, p = .running t ∧ State.Twins 1 (i.Stacks 1) t b := by
  rcases h.step hplain.abreast_opening hnew hstep with ⟨p', hstep', hp⟩ | ⟨token, token', ctx, ctx',
    hparted, hblock, htakes⟩
  · exact .inl ⟨p', hstep', hp.mono fun x y => Stacks.of_ahead fun hst => .opening hst⟩
  · refine .inr ?_
    have hquote : '"' ∉ i.name.toList := fun hmem => nomatch (i.plain_name _ hmem).1
    have hdollar : '$' ∉ i.name.toList := fun hmem => (i.plain_name _ hmem).2.2 rfl
    obtain ⟨s, t, w, rfl, hs, ht, hload, hapart⟩ := load_of_parted hparted h.ctx.files
    have hlexemes : token.lexeme :: s.view.lexemes = Lexeme.scan (sourceLine i.name) :=
      hapart.lexemes
    rw [scan_sourceLine hquote] at hlexemes
    obtain ⟨hlex, hlexemes⟩ := List.cons.inj hlexemes
    obtain ⟨c, hsource, rfl⟩ := htakes.source_eq hblock hlex
    obtain ⟨report, u, rfl, hu⟩ := Context.readSource_opens hs hlexemes hdollar
      (show fs.look (Path.join a.ctx.root i.name) = _ from hroot ▸ i.look_inner) hsource
    have hu : u.view = i.resumed := by
      have hfile : s.view.file = settings.file := hapart.file
      have htexts : s.view.texts = i.after := hapart.texts
      have hdamage : s.view.damage = i.damage := hapart.damage
      rw [hu]
      dsimp only
      rw [hfile, htexts, hdamage]
      rfl
    obtain ⟨hdepth, -⟩ := h.ctx.depth
    rw [hdepth] at hdepths
    refine ⟨_, rfl, (h.toFramed.shallow hdepths 1).wait ⟨h.ctx.root, h.ctx.environment,
      h.ctx.strict, h.ctx.scope, h.ctx.symbols, ?_⟩⟩
    · rw [ht]
      refine .inside ⟨rfl, (View.file_of_load hload).symm.trans hapart.file', ?_⟩ hu
      intro v' hv'
      refine ⟨w, hload, .inl ?_⟩
      rw [view_opened, i.texts_inner] at hv'
      obtain ⟨rfl, -⟩ := View.eq_of_load rfl hv'
      refine { file := rfl, file' := hapart.file', damage := rfl, damage' := hapart.damage',
               lexemes := hapart.lexemes', remnant := .scan _, nonempty := Lexeme.scan_ne_nil _,
               texts := ⟨i.rest, (List.append_nil _).symm, hapart.texts'⟩ }

/-- The first run closes the included file, and the second one goes on. -/
lemma step_inside {u : TokenStream} (hplain : i.Plain) (hu : u.view = i.resumed)
    (h : State.Twins 1 (Over i.inside.Meets [u] []) a b)
    (hdepths : ∀ f ∈ a.frame :: a.outer, f.depth ≤ a.frame.depth)
    (htop : a.frame.isTop = true → a.frame.depth = 1)
    (hnew : ∀ name, p.ctx.visited = a.ctx.visited ++ [name] →
      fs'.look (Path.join a.ctx.root name) = fs.look (Path.join a.ctx.root name))
    (hstep : a.step fs = .ok p) :
    (∃ p', b.step fs' = .ok p' ∧ Progress.Twins 1 (i.Stacks 1) p p') ∨
      ∃ t, p = .running t ∧ State.Twins 0 (i.Stacks 0) t b := by
  rcases h.step (hplain.abreast_inside hu) hnew hstep with ⟨p', hstep', hp⟩ | ⟨token, token', ctx,
    ctx', hparted, hblock, htakes⟩
  · exact .inl ⟨p', hstep', hp.mono fun x y => Stacks.of_ahead fun hst => .inside hst hu⟩
  · refine .inr ?_
    obtain ⟨hlex, -⟩ := lexeme_of_parted rfl hparted
    obtain ⟨hdepth, -⟩ := hparted.ctx.depth
    rw [List.length_singleton] at hdepth
    obtain ⟨s, t, w, rfl, hs, ht, hload, hapart⟩ := load_of_parted hparted h.ctx.files
    rcases htakes.fileEnd_eq hblock hlex with ⟨rfl, hless⟩ | ⟨-, -, htop', hdeep, -⟩
    · refine ⟨_, rfl, (h.toFramed.shallow (fun f hf => ?_) 0).wait ⟨h.ctx.root,
        h.ctx.environment, h.ctx.strict, h.ctx.scope, h.ctx.symbols, ?_⟩⟩
      · have hle := hdepths f hf
        omega
      · have hfiles : (a.ctx.setCurrent s).closeFile.files = [u] := by
          rw [closeFile, hs]
          rfl
        rw [hfiles, ht]
        refine .between hu ?_
        rw [hload]
        have hlexemes : w.lexemes = firstLexemes i.after := hapart.lexemes'
        have htexts : w.texts = i.after.tail := hapart.texts'
        have hfile : w.file = settings.file := hapart.file'
        have hdamage : w.damage = none := hapart.damage'
        rw [← hlexemes, ← htexts, ← hfile, ← hdamage]
    · have hone := htop htop'
      omega

/-- The first run reads the end of the line that has included the file. -/
lemma step_between {u t : TokenStream} (hu : u.view = i.resumed)
    (ht : t.view.load = some ⟨settings.file, firstLexemes i.after, i.after.tail, none⟩)
    (h : State.Twins 0 (fun files files' => files = [u] ∧ files' = [t]) a b)
    (hstep : a.step fs = .ok p) : ∃ c, p = .running c ∧ State.Twins 0 (i.Stacks 0) c b := by
  obtain ⟨token, ctx, hnext, htakes⟩ := State.takes_of_step hstep
  obtain ⟨u₀, u₁, below, hfiles, hnext, hfiles', rfl⟩ := Context.next_eq_ok hnext
  obtain ⟨ha, hb⟩ := h.ctx.files
  rw [ha] at hfiles
  cases hfiles
  have hload := TokenStream.view_of_next hnext
  rw [hu, View.load_of_ne_nil (List.cons_ne_nil _ _)] at hload
  have hview : i.resumed = u₁.view.push token.lexeme := Option.some.inj hload
  have hlexemes : [Lexeme.lineEnd] = token.lexeme :: u₁.view.lexemes :=
    congrArg View.lexemes hview
  have htexts : i.after = u₁.view.texts := congrArg View.texts hview
  have hfile : settings.file = u₁.view.file := congrArg View.file hview
  have hdamage : i.damage = u₁.view.damage := congrArg View.damage hview
  obtain ⟨hlex, hnil⟩ := List.cons.inj hlexemes
  obtain rfl := htakes.lineEnd_eq hlex.symm
  refine ⟨_, rfl, h.toFramed.wait ⟨h.ctx.root, h.ctx.environment, h.ctx.strict, h.ctx.scope,
    h.ctx.symbols, ?_⟩⟩
  rw [hfiles', hb]
  refine .behind ⟨hfile.symm, (View.file_of_load ht).symm, ?_⟩
  intro v' hv'
  refine ⟨_, ht, ?_⟩
  obtain ⟨rfl, -⟩ := View.eq_of_load hnil.symm hv'
  rw [← htexts, ← hfile, ← hdamage]
  cases hafter : i.after with
  | nil => exact .inr ⟨⟨rfl, rfl, rfl, rfl⟩, rfl, rfl, rfl, rfl⟩
  | cons line lines =>
    exact .inl { file := rfl, file' := rfl, damage := rfl, damage' := rfl, lexemes := rfl,
                 remnant := .scan line, nonempty := Lexeme.scan_ne_nil line,
                 texts := ⟨lines, (List.append_nil _).symm, (List.append_nil _).symm⟩ }

end Step

end Inlining

lemma Reachable.depth_of_isTop {fs : FileSystem} {settings : Settings} {s : State}
    (h : Reachable fs settings s) : ∀ mark ∈ s.marks, mark.isTop = true → mark.depth = 1 := by
  induction h with
  | start hstart =>
    obtain ⟨bytes, -, rfl⟩ := Settings.start_eq_ok.1 hstart
    intro mark hmark htop
    cases List.mem_singleton.1 hmark
    rfl
  | @step s s' hs hstep ih =>
    generalize hp : Progress.running s' = p at hstep
    cases State.step_motion hstep with
    | @stay e ctx hctx hkind =>
      cases hp
      have hmark : (s.frame.withEntry e).mark = s.frame.mark := Frame.mark_withEntry hkind
      change ∀ mark ∈ (s.frame.withEntry e).mark :: s.outer.map Frame.mark, _
      rw [hmark]
      exact ih
    | cross hblock hreads hvisited =>
      cases hp
      exact ih
    | enter hblock hctx =>
      cases hp
      exact ih
    | leave hblock hctx hdepth =>
      cases hp
      exact ih
    | call hholds hopened =>
      cases hp
      refine List.forall_mem_cons.2 ⟨fun htop => ?_, ih⟩
      exact nomatch hopened.isTop.symm.trans htop
    | close hctx hends =>
      rw [State.close_marks hp.symm]
      exact fun mark hmark => ih mark (List.mem_of_mem_tail hmark)

namespace State

variable {fs : FileSystem} {s : State} {p : Progress} {e : Entry} {ctx : Context}

lemma close_visited (s : State) (ctx : Context) : (s.close ctx).ctx.visited = ctx.visited := by
  unfold close
  dsimp only
  split
  all_goals
    dsimp only [Progress.ctx]
    split
    · exact visited_setSymbol _ _
    · exact visited_define _ _
    · rfl

lemma step_visited (h : s.step fs = .ok p) : s.ctx.visited <+: p.ctx.visited := by
  cases step_motion h with
  | stay hctx => exact (congrArg _ hctx.visited).mpr (List.prefix_refl _)
  | cross hblock hreads hvisited => exact (congrArg _ hvisited).mpr (List.prefix_refl _)
  | enter hblock hctx =>
    obtain ⟨name, -, hvisited⟩ := hctx.opened
    exact ⟨[name], hvisited.symm⟩
  | leave hblock hctx => exact (congrArg _ hctx.visited).mpr (List.prefix_refl _)
  | call hholds hopened => exact (congrArg _ hopened.remains.visited).mpr (List.prefix_refl _)
  | close hctx =>
    have hvisited := (close_visited s _).trans hctx.visited
    exact (congrArg _ hvisited).mpr (List.prefix_refl _)

lemma run_visited (h : s.run fs = .ok (e, ctx)) : s.ctx.visited <+: ctx.visited := by
  induction s using step_induction fs with
  | next s ih =>
    cases hstep : s.step fs with
    | error fault =>
      rw [run_of_error hstep] at h
      cases h
    | ok p =>
      have hvisited := step_visited hstep
      cases p with
      | finished e' ctx' =>
        rw [run_of_finished hstep] at h
        cases h
        exact hvisited
      | running s' =>
        rw [run_of_running hstep] at h
        exact hvisited.trans (ih s' hstep h)

end State

namespace Inlining

variable {fs fs' : FileSystem} {settings : Settings} {i : Inlining fs fs' settings}

/-- The second run makes the same step as the first one, or it waits. -/
theorem step {a b : State} {k : Nat} {p : Progress} (hplain : i.Plain)
    (hreach : Reachable fs settings a) (h : State.Twins k (i.Stacks k) a b)
    (hnew : ∀ name, p.ctx.visited = a.ctx.visited ++ [name] →
      fs'.look (Path.join settings.root name) = fs.look (Path.join settings.root name))
    (hstep : a.step fs = .ok p) :
    (∃ p', b.step fs' = .ok p' ∧ Progress.Twins k (i.Stacks k) p p') ∨
      ∃ t k', p = .running t ∧ State.Twins k' (i.Stacks k') t b := by
  have hsound := hreach.sound
  have hdepths := hsound.depths
  rw [List.pairwise_cons] at hdepths
  rw [← hsound.root] at hnew
  have hstacks := h.ctx.files
  generalize hfiles : a.ctx.files = files at hstacks
  generalize hfiles' : b.ctx.files = files' at hstacks
  cases hstacks with
  | @opening s t hst =>
    have hover : State.Twins 0 (Over i.opening.Meets [] []) a b :=
      { h with ctx := { h.ctx with files := ⟨s, t, hfiles, hfiles', hst⟩ } }
    rcases step_opening hplain hover hsound.root
      (fun f hf => hdepths.1 _ (List.mem_map_of_mem hf)) hnew hstep with hsame | ⟨t, rfl, ht⟩
    · exact .inl hsame
    · exact .inr ⟨t, 1, rfl, ht⟩
  | @inside s u t hst hu =>
    have hover : State.Twins 1 (Over i.inside.Meets [u] []) a b :=
      { h with ctx := { h.ctx with files := ⟨s, t, hfiles, hfiles', hst⟩ } }
    have hframes : ∀ f ∈ a.frame :: a.outer, f.depth ≤ a.frame.depth := by
      refine List.forall_mem_cons.2 ⟨Nat.le_refl _, fun f hf => ?_⟩
      exact (List.pairwise_cons.1 hdepths.2).1 _ (List.mem_map_of_mem hf)
    rcases step_inside hplain hu hover hframes (hreach.depth_of_isTop _ List.mem_cons_self) hnew
      hstep with hsame | ⟨t, rfl, ht⟩
    · exact .inl hsame
    · exact .inr ⟨t, 0, rfl, ht⟩
  | between hu ht =>
    obtain ⟨c, rfl, hc⟩ := step_between hu ht
      { h with ctx := { h.ctx with files := ⟨hfiles, hfiles'⟩ } } hstep
    exact .inr ⟨c, 0, rfl, hc⟩
  | @behind s t hst =>
    have hover : State.Twins 0 (Over i.behind.Meets [] []) a b :=
      { h with ctx := { h.ctx with files := ⟨s, t, hfiles, hfiles', hst⟩ } }
    exact .inl (step_behind hover (hsound.inside _ List.mem_cons_self) hnew hstep)
  | @above k s t low low' file damage hst hbelow =>
    have hover : State.Twins k (Over (same file damage).Meets low low') a b :=
      { h with ctx := { h.ctx with files := ⟨s, t, hfiles, hfiles', hst⟩ } }
    exact .inl (step_over hbelow hover hnew hstep)

/-- If the first run ends in an entry, so does the second one. -/
theorem run {a b : State} {k : Nat} {e : Entry} {ctx : Context} (hplain : i.Plain)
    (hreach : Reachable fs settings a) (h : State.Twins k (i.Stacks k) a b)
    (hvisited : a.ctx.visited ≠ [])
    (honce : ∀ name ∈ ctx.visited.tail,
      fs'.look (Path.join settings.root name) = fs.look (Path.join settings.root name))
    (hrun : a.run fs = .ok (e, ctx)) :
    ∃ e' ctx', b.run fs' = .ok (e', ctx') ∧ e'.unlocated = e.unlocated ∧
      unlocatedSymbols ctx'.symbols = unlocatedSymbols ctx.symbols := by
  induction a using State.step_induction fs generalizing k b with
  | next a ih =>
    cases hstep : a.step fs with
    | error fault =>
      rw [State.run_of_error hstep] at hrun
      cases hrun
    | ok p =>
      have hmore := State.step_visited hstep
      have hearlier : p.ctx.visited <+: ctx.visited := by
        cases p with
        | finished e' ctx' =>
          rw [State.run_of_finished hstep] at hrun
          cases hrun
          exact List.prefix_refl _
        | running a' =>
          rw [State.run_of_running hstep] at hrun
          exact State.run_visited hrun
      have hnew : ∀ name, p.ctx.visited = a.ctx.visited ++ [name] →
          fs'.look (Path.join settings.root name) = fs.look (Path.join settings.root name) := by
        intro name hname
        refine honce name ?_
        obtain ⟨file, names, hnames⟩ := List.exists_cons_of_ne_nil hvisited
        obtain ⟨later, hlater⟩ := hearlier
        rw [← hlater, hname, hnames]
        simp
      have hvisited' : p.ctx.visited ≠ [] := by
        intro hnil
        rw [hnil, List.prefix_nil] at hmore
        exact hvisited hmore
      rcases step hplain hreach h hnew hstep with ⟨p', hstep', hp⟩ | ⟨t, k', rfl, ht⟩
      · cases hp with
        | running hs =>
          rw [State.run_of_running hstep] at hrun
          rw [State.run_of_running hstep']
          exact ih _ hstep (hreach.step hstep) hs hvisited' hrun
        | finished he hctx =>
          rw [State.run_of_finished hstep] at hrun
          cases hrun
          exact ⟨_, _, State.run_of_finished hstep', he, hctx.symbols⟩
      · rw [State.run_of_running hstep] at hrun
        exact ih _ hstep (hreach.step hstep) ht hvisited' hrun

lemma Plain.start (hplain : i.Plain) :
    State.Twins 0 (i.Stacks 0) (settings.opened i.outer) (settings.opened i.inlined) := by
  refine ⟨⟨⟨rfl, rfl, rfl, rfl⟩, .nil⟩, ⟨rfl, rfl, rfl, rfl, rfl, .opening ?_⟩⟩
  refine Fork.Along.meets hplain.opening_proper ⟨⟨rfl, rfl, rfl, i.whole⟩, rfl, .inl rfl, ?_⟩
  refine ⟨i.before, i.texts_outer, ?_⟩
  rw [opening, ← List.append_assoc]
  exact i.texts_inlined

end Inlining

lemma Tree.unlocated_ofRun {e e' : Entry} (h : e'.unlocated = e.unlocated) (ctx ctx' : Context) :
    (ofRun e' ctx').root.toEntry.unlocated = (ofRun e ctx).root.toEntry.unlocated := by
  have hhead := Entry.head_of_unlocated h
  cases e with
  | menu head visibleIf children =>
    cases e' with
    | menu head' visibleIf' children' => exact h
    | _ => cases h
  | config c =>
    cases e' with
    | config c' => exact congrArg (Entry.menu · none []) hhead
    | _ => cases h
  | choice c =>
    cases e' with
    | choice c' => exact congrArg (Entry.menu · none []) hhead
    | _ => cases h
  | comment c =>
    cases e' with
    | comment c' => exact congrArg (Entry.menu · none []) hhead
    | _ => cases h

/-- Including a file gives the same tree and the same symbols as having its lines in the place of
the inclusion, apart from the locations. No other name under which a file is opened may lead to the
top-level file. -/
theorem parse_inlined {fs fs' : FileSystem} {settings : Settings} (i : Inlining fs fs' settings)
    (hplain : i.Plain) {tree : Tree} (hparse : Tree.parse fs settings = .ok tree)
    (honce : ∀ name ∈ tree.files.tail,
      fs'.look (Path.join settings.root name) = fs.look (Path.join settings.root name)) :
    ∃ tree', Tree.parse fs' settings = .ok tree' ∧
      tree'.root.toEntry.unlocated = tree.root.toEntry.unlocated ∧
        unlocatedSymbols tree'.symbols = unlocatedSymbols tree.symbols := by
  obtain ⟨s, e, ctx, hstart, hrun, rfl⟩ := Tree.parse_eq_ok.1 hparse
  have hreach := Reachable.start hstart
  obtain ⟨bytes, hlook, rfl⟩ := Settings.start_eq_ok.1 hstart
  cases hlook.symm.trans i.look_outer
  obtain ⟨e', ctx', hrun', he, hsymbols⟩ :=
    Inlining.run hplain hreach hplain.start (List.cons_ne_nil _ _) honce hrun
  have hstart' := Settings.start_eq_ok.2 ⟨i.inlined, i.look_inlined, rfl⟩
  exact ⟨_, Tree.parse_eq_ok.2 ⟨_, e', ctx', hstart', hrun', rfl⟩, Tree.unlocated_ofRun he _ _,
    hsymbols⟩

/-- A top-level file beside a file `F` that ends in a help text. -/
def besideHelp (text : String) : FileSystem :=
  let help : Snapshot :=
    { files := [(["F".toList], "config B\n bool \"b\"\n help\n  text\n".toUTF8.toList)] }
  (help.write "K" text.toUTF8.toList).toFileSystem

/-- The lines of the file take its place in the top-level file. -/
def helpInlining (outer inlined : String) (before after : List (List Char))
    (houter : lineTexts outer.toUTF8.toList = before ++ sourceLine "F" :: after)
    (hinlined : lineTexts inlined.toUTF8.toList = before ++
      ["config B".toList, " bool \"b\"".toList, " help".toList, "  text".toList] ++ after)
    (hwhole : (Line.ofBytes inlined.toUTF8.toList).2 = none)
    (hafter : ∀ line ∈ after.head?, Line.Leads line) :
    Inlining (besideHelp outer) (besideHelp inlined) { root := "", file := "K" } where
  name := "F"
  before
  first := "config B".toList
  rest := [" bool \"b\"".toList, " help".toList, "  text".toList]
  after
  outer := _
  inner := "config B\n bool \"b\"\n help\n  text\n".toUTF8.toList
  inlined := _
  look_outer := rfl
  look_inner := rfl
  look_inlined := rfl
  look _ := Snapshot.look_write _ _ _ _ _
  texts_outer := houter
  texts_inner := by decide +kernel
  texts_inlined := hinlined
  whole := hwhole
  directory := rfl
  plain_name := by decide
  first_leads := ⟨"config", " B".toList, rfl, by decide, by decide⟩
  after_leads := hafter

/-- A menu with the file in it. -/
def menuInlining :=
  helpInlining "menu \"m\"\nsource \"F\"\nendmenu\n"
    "menu \"m\"\nconfig B\n bool \"b\"\n help\n  text\nendmenu\n"
    ["menu \"m\"".toList] ["endmenu".toList] (by decide +kernel) (by decide +kernel)
    (by decide +kernel) (by
      intro line hline
      cases hline
      exact ⟨"endmenu", [], rfl, by decide, by decide⟩)

theorem parse_inlined_menuInlining : ∃ tree tree',
    Tree.parse (besideHelp "menu \"m\"\nsource \"F\"\nendmenu\n")
        { root := "", file := "K" } = .ok tree ∧
      tree.files = ["K", "F"] ∧ menuInlining.Plain ∧
        Tree.parse (besideHelp "menu \"m\"\nconfig B\n bool \"b\"\n help\n  text\nendmenu\n")
            { root := "", file := "K" } = .ok tree' ∧
          tree'.root.toEntry.unlocated = tree.root.toEntry.unlocated ∧
            unlocatedSymbols tree'.symbols = unlocatedSymbols tree.symbols := by
  have hrun : (Tree.parseFor (besideHelp "menu \"m\"\nsource \"F\"\nendmenu\n")
      { root := "", file := "K" } 40).any (fun tree => tree.files = ["K", "F"]) = true := by
    decide +kernel
  obtain ⟨tree, htree, hfiles⟩ := (Option.any_eq_true _ _).1 hrun
  have hfiles := of_decide_eq_true hfiles
  have hparse := Tree.parse_of_parseFor htree
  have hplain : menuInlining.Plain := by
    refine ⟨by decide +kernel, fun line hline => ?_⟩
    cases hline
    decide +kernel
  have honce : ∀ name ∈ tree.files.tail,
      (besideHelp "menu \"m\"\nconfig B\n bool \"b\"\n help\n  text\nendmenu\n").look
        (Path.join "" name) =
      (besideHelp "menu \"m\"\nsource \"F\"\nendmenu\n").look (Path.join "" name) := by
    rw [hfiles]
    decide +kernel
  obtain ⟨tree', hparse', hentries, hsymbols⟩ := parse_inlined menuInlining hplain hparse honce
  exact ⟨tree, tree', hparse, hfiles, hplain, hparse', hentries, hsymbols⟩

/-- An `if` block behind the file, with a quoted text that ends in a blank and with its line. -/
def openQuoteInlining :=
  helpInlining "source \"F\"\nif \"A \nconfig X\nendif\n"
    "config B\n bool \"b\"\n help\n  text\nif \"A \nconfig X\nendif\n"
    [] ["if \"A ".toList, "config X".toList, "endif".toList] (by decide +kernel) (by decide +kernel)
    (by decide +kernel) (by
      intro line hline
      cases hline
      exact ⟨"if", " \"A ".toList, rfl, by decide, by decide⟩)

/-- A help text in front of a line that is not plain makes a difference, also if the line is of
ASCII without `#`: behind the inclusion the condition of the block ends in a blank, and behind the
lines of the file it has lost it. -/
theorem parse_inlined_ne_of_openQuote : ∃ tree tree',
    (∀ line ∈ openQuoteInlining.first :: openQuoteInlining.after.head?.toList,
        ∀ c ∈ line, c.val < 128 ∧ c ≠ '#') ∧
      Tree.parse (besideHelp "source \"F\"\nif \"A \nconfig X\nendif\n")
          { root := "", file := "K" } = .ok tree ∧
        tree.files = ["K", "F"] ∧
          Tree.parse (besideHelp
              "config B\n bool \"b\"\n help\n  text\nif \"A \nconfig X\nendif\n")
              { root := "", file := "K" } = .ok tree' ∧
            tree.nodes.map (·.head.depends) = [[], [⟨"\"A \""⟩]] ∧
              tree'.nodes.map (·.head.depends) = [[], [⟨"\"A\""⟩]] ∧
                tree'.root.toEntry.unlocated ≠ tree.root.toEntry.unlocated := by
  have hruns : (Tree.parseFor (besideHelp "source \"F\"\nif \"A \nconfig X\nendif\n")
      { root := "", file := "K" } 40).any (fun tree => (Tree.parseFor (besideHelp
        "config B\n bool \"b\"\n help\n  text\nif \"A \nconfig X\nendif\n")
        { root := "", file := "K" } 40).any fun tree' => tree.files = ["K", "F"] ∧
          tree.nodes.map (·.head.depends) = [[], [⟨"\"A \""⟩]] ∧
            tree'.nodes.map (·.head.depends) = [[], [⟨"\"A\""⟩]] ∧
              tree'.root.toEntry.unlocated ≠ tree.root.toEntry.unlocated) = true := by
    decide +kernel
  obtain ⟨tree, htree, hruns⟩ := (Option.any_eq_true _ _).1 hruns
  obtain ⟨tree', htree', hruns⟩ := (Option.any_eq_true _ _).1 hruns
  obtain ⟨hfiles, hdepends, hdepends', hne⟩ := of_decide_eq_true hruns
  exact ⟨tree, tree', by decide +kernel, Tree.parse_of_parseFor htree, hfiles,
    Tree.parse_of_parseFor htree', hdepends, hdepends', hne⟩

end Kconfig
