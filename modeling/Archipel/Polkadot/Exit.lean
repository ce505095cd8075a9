import Archipel.Async.Nested
import Archipel.Polkadot.Flows

/-!
# The clean-up at the exit

The exit signals launch a clean-up while starts are in flight. It removes the
two containers one after the other; a start creates its container several awaits
after its own lookups.
-/

namespace Archipel.Polkadot
open Async Docker

/-! ### The host under a clean-up -/

/-- The host, with the names that the clean-up has listed the containers for. -/
structure Watched where
  host : Host
  looked : List String

def Flow.looks : Flow → Docker.Call → List String
  | .cleanUp, .listContainers name => [name]
  | _, _ => []

def createdName : Docker.Call → Option String
  | .createContainer data => some data.name
  | _ => none

/-- A working daemon; `creates` limits when a container that is not there may be
created. -/
def watching (creates : String → Watched → Prop) (t : Flow) : Env Docker.api String Watched :=
  fun c w r w' => daemon c w.host r w'.host ∧ w'.looked = t.looks c ++ w.looked ∧
    ∀ name, createdName c = some name → ¬ w.host.Present name → creates name w

def exiting (config : Config) (launches : Flow → List (Flow × Method Bool) → Prop)
    (creates : String → Watched → Prop) :
    System Docker.api State String Bool Watched Flow where
  code := Flow.code config
  launches := launches
  env := watching creates
  world := fun _ _ => False

/-- Starts are launched at any time, the clean-up once. -/
def OneCleanUp : Flow → List (Flow × Method Bool) → Prop
  | .start _, _ => True
  | .cleanUp, fs => ∀ f ∈ fs, f.1 ≠ .cleanUp

/-- The clean-up is launched last. -/
def InFlight (_ : Flow) (fs : List (Flow × Method Bool)) : Prop := ∀ f ∈ fs, f.1 ≠ .cleanUp

/-- The clean-up has not looked for the container yet. -/
def Unlooked (name : String) (w : Watched) : Prop := name ∉ w.looked

/-! ### What the flows do to the host -/

/-- What was looked for stays so, and no container of such a name is new. -/
structure Fades (w w' : Watched) : Prop where
  looked : w.looked ⊆ w'.looked
  origin : ∀ c' ∈ w'.host.containers, c'.name ∈ w.looked →
    ∃ c ∈ w.host.containers, c.name = c'.name ∧ c.id = c'.id

namespace Fades

theorem refl (w : Watched) : Fades w w := ⟨List.Subset.refl _, fun c hc _ => ⟨c, hc, rfl, rfl⟩⟩

theorem trans {w w' w'' : Watched} (h : Fades w w') (h' : Fades w' w'') : Fades w w'' := by
  refine ⟨List.Subset.trans h.looked h'.looked, fun c'' hc'' hlooked => ?_⟩
  obtain ⟨c', hc', hname', hid'⟩ := h'.origin c'' hc'' (h.looked hlooked)
  obtain ⟨c, hc, hname, hid⟩ := h.origin c' hc' (hname' ▸ hlooked)
  exact ⟨c, hc, hname.trans hname', hid.trans hid'⟩

end Fades

/-- A container of the host after a call was there before, or is just created. -/
theorem daemon_origin {c : Docker.Call} {h h' : Host} {r : Except String c.Ret}
    (hr : daemon c h r h') {c' : Container} (hc' : c' ∈ h'.containers) :
    (∃ d ∈ h.containers, d.name = c'.name ∧ d.id = c'.id) ∨
      createdName c = some c'.name ∧ ¬ h.Present c'.name := by
  have hquiet : c.harmless → ∃ d ∈ h.containers, d.name = c'.name ∧ d.id = c'.id := by
    intro hc
    obtain ⟨d, hd, hname, hid, -⟩ := (harmless_keeps "" c'.name hc hr).down_from c' hc' rfl
    exact ⟨d, hd, hname, hid⟩
  cases c with
  | createContainer data =>
    rcases hr with ⟨id, hid, hname, -, rfl⟩ | ⟨-, -, rfl⟩
    · rcases Host.mem_add.mp hc' with hold | rfl
      · exact .inl ⟨c', hold, rfl, rfl⟩
      · exact .inr ⟨rfl, fun ⟨d, hd, hdn⟩ => hname d hd hdn⟩
    · exact .inl ⟨c', hc', rfl, rfl⟩
  | startContainer nameOrId id =>
    simp only [daemon] at hr
    have hsame : h' = h ∨ h' = h.setRunning true id := by
      split at hr
      · split at hr
        · exact .inl hr.2
        · exact .inr hr.2
      · exact .inl hr.2
    rcases hsame with rfl | rfl
    · exact .inl ⟨c', hc', rfl, rfl⟩
    · obtain ⟨d, hd, rfl⟩ := Host.mem_setRunning.mp hc'
      exact .inl ⟨d, hd, by simp, by simp⟩
  | _ => exact .inl (hquiet trivial)

theorem watching_fades {t : Flow} {c : Docker.Call} {w w' : Watched} {r : Except String c.Ret}
    (h : watching Unlooked t c w r w') : Fades w w' := by
  obtain ⟨hr, hlooked, hcreates⟩ := h
  refine ⟨hlooked ▸ List.subset_append_right _ _, fun c' hc' hmem => ?_⟩
  rcases daemon_origin hr hc' with hold | ⟨hcreated, hnew⟩
  · exact hold
  · exact absurd hmem (hcreates c'.name hcreated hnew)

/-! ### What the clean-up leaves -/

/-- What a lookup of the clean-up tells while no container of the name is new. -/
def Sought (name : String) : Option ContainerId → Watched → Prop
  | none, w => name ∈ w.looked ∧ ¬ w.host.Present name
  | some id, w => name ∈ w.looked ∧ OnlyNamed name id w.host

theorem fades_sought {name : String} {found : Option ContainerId} {w w' : Watched}
    (h : Fades w w') (hw : Sought name found w) : Sought name found w' := by
  cases found with
  | none =>
    refine ⟨h.looked hw.1, fun ⟨c', hc', hname'⟩ => hw.2 ?_⟩
    obtain ⟨c, hc, hname, -⟩ := h.origin c' hc' (hname' ▸ hw.1)
    exact ⟨c, hc, hname.trans hname'⟩
  | some id =>
    refine ⟨h.looked hw.1, fun c' hc' hname' => ?_⟩
    obtain ⟨c, hc, hname, hid⟩ := h.origin c' hc' (hname' ▸ hw.1)
    exact hid.symm.trans (hw.2 c hc (hname.trans hname'))

/-- What the flows do to the host while the clean-up is in flight. -/
def fading (x y : State × Watched) : Prop := Fades x.2 y.2

theorem fading_refl (x : State × Watched) : fading x x := Fades.refl x.2

theorem fading_trans (x y z : State × Watched) (h : fading x y) (h' : fading y z) : fading x z :=
  h.trans h'

abbrev underStarts : CallSpec Docker.api String (State × Watched) :=
  shielded fading fading (watching Unlooked .cleanUp)

theorem wp_lookup_seq {α : Type} (c : Docker.Call) {Q : Except String c.Ret → Watched → Prop}
    (hQ : ∀ r w w', Fades w w' → Q r w → Q r w') (f : c.Ret → Method α)
    {P : Except String α → State × Watched → Prop} {x : State × Watched}
    (hc : ∀ w, Fades x.2 w → ∀ r w', watching Unlooked .cleanUp c w r w' → Q r w')
    (hok : ∀ a (y : State × Watched), Q (.ok a) y.2 → wp underStarts fading (f a) P y)
    (herr : ∀ e (y : State × Watched), Q (.error e) y.2 → P (.error e) y) :
    wp underStarts fading (request c >>= f) P x := by
  refine wp_seq (P := fun r y => Q r y.2) (shielded_mono _ _ _) (request c) f x ?_ hok herr
  refine (wp_call underStarts fading c _ x).mpr ?_
  intro y hy r w hr
  exact ⟨watching_fades hr, fun z hz => hQ r w z.2 hz (hc y.2 hy r w hr)⟩

theorem wp_getContainer_exit {name : String} (hplain : Plain name) (x : State × Watched) :
    wp underStarts fading (getContainer name) (fun out y => ∃ container : Option Instance,
      out = .ok container ∧ Sought name (container.map Instance.id) y.2) x := by
  refine (wp_tryCatch ..).mpr ?_
  refine wp_lookup_seq (.listContainers name) (Q := fun r w => Sought name (listed name r) w)
    (fun r w w' => fades_sought) _ ?_ ?_ ?_
  · intro w _ r w' hr
    obtain ⟨⟨rfl, hhost⟩, hlooked, -⟩ := hr
    have hmem : name ∈ w'.looked := hlooked ▸ List.mem_append_left _ (List.mem_singleton_self name)
    show Sought name ((List.find? (Summary.matches · name)
      (w.host.containers.map Container.summary)).map Summary.id) w'
    rw [← hhost]
    cases hf : (w'.host.containers.map Container.summary).find?
      fun c => Summary.matches c name with
    | none => exact ⟨hmem, fun ⟨c, hc, hn⟩ => find_matches_none w'.host hplain hf c hc hn⟩
    | some found =>
      obtain ⟨c, hc, hid, hn⟩ := find_matches_some w'.host hplain hf
      refine ⟨hmem, fun d hd hdn => ?_⟩
      rw [w'.host.eq_of_name hd hc (hdn.trans hn.symm), hid]
  · intro containers y hy
    have hy : Sought name ((List.find? (Summary.matches · name) containers).map Summary.id) y.2 :=
      hy
    cases hfind : List.find? (Summary.matches · name) containers with
    | none =>
      rw [hfind] at hy
      exact ⟨none, rfl, hy⟩
    | some found =>
      rw [hfind] at hy
      refine wp_lookup_seq (.inspectContainer name found.id)
        (Q := fun r w => Sought name (r.toOption.map fun _ => found.id) w)
        (fun r w w' => fades_sought) _ ?_ (fun _ _ hz => ⟨some ⟨found.id, _⟩, rfl, hz⟩)
        fun _ _ hz => ⟨none, rfl, hz⟩
      intro w hw r w' hr
      have hfound := fades_sought (hw.trans (watching_fades hr)) hy
      obtain ⟨⟨hhost, rfl⟩, -, -⟩ := hr
      rw [← hhost]
      cases hfind : w'.host.find found.id with
      | some c => exact hfound
      | none =>
        exact ⟨hfound.1, fun ⟨c, hc, hcn⟩ => Host.find_none hfind c hc (hfound.2 c hc hcn)⟩
  · intro e y hy
    exact ⟨none, rfl, hy⟩

theorem wp_removeContainer_exit {name : String} (hplain : Plain name) (x : State × Watched) :
    wp underStarts fading (removeContainer name)
      (fun out y => (∃ b, out = .ok b) ∧ Sought name none y.2) x := by
  refine (wp_tryCatch ..).mpr (wp_seq (shielded_mono _ _ _) (getContainer name) _ x
    (wp_getContainer_exit hplain x) ?_ ?_)
  · intro container y hy
    obtain ⟨container, hcontainer, hy⟩ := hy
    cases hcontainer
    cases container with
    | none => exact ⟨⟨false, rfl⟩, hy⟩
    | some container =>
      refine wp_lookup_seq (.removeContainer name container.id)
        (Q := fun _ w => Sought name none w) (fun r w w' => fades_sought) _ ?_
        (fun _ _ hz => ⟨⟨true, rfl⟩, hz⟩) fun _ _ hz => ⟨⟨false, rfl⟩, hz⟩
      intro w hw r w' hr
      have honly := fades_sought hw hy
      have hlooked := (fades_sought (watching_fades hr) honly).1
      obtain ⟨hd, -, -⟩ := hr
      refine ⟨hlooked, fun ⟨c', hc', hcn⟩ => ?_⟩
      simp only [daemon] at hd
      cases hfound : w.host.find container.id with
      | some c =>
        rw [hfound] at hd
        rw [hd.2] at hc'
        obtain ⟨hm, hid⟩ := Host.mem_remove.mp hc'
        exact hid (honly.2 c' hm hcn)
      | none =>
        rw [hfound] at hd
        rw [hd.2] at hc'
        exact Host.find_none hfound c' hc' (honly.2 c' hc' hcn)
  · intro e y hy
    obtain ⟨container, hcontainer, -⟩ := hy
    cases hcontainer

/-- What the clean-up promises. -/
def Left (config : Config) (w : Watched) : Prop :=
  Sought config.syncName none w ∧ Sought config.validatorName none w

theorem fades_left {config : Config} {w w' : Watched} (h : Fades w w') (hw : Left config w) :
    Left config w' := ⟨fades_sought h hw.1, fades_sought h hw.2⟩

theorem wp_cleanUp_exit (config : Config) (x : State × Watched) (hx : x.1.cleaningUp = false) :
    wp underStarts fading (cleanUp config) (fun _ y => Left config y.2) x := by
  refine (wp_tryCatch ..).mpr ((wp_get_bind ..).mpr ?_)
  rw [hx]
  refine (wp_modify_bind ..).mpr ⟨Fades.refl x.2, ?_⟩
  refine wp_seq (shielded_mono _ _ _) (removeContainer config.syncName) _ _
    (wp_removeContainer_exit (plain_containerName config .passive) _) ?_ ?_
  · intro _ y hy
    have hsync : Sought config.syncName none y.2 := hy.2
    have hkeeps := wp_shielded_keeps (K := fun z => Sought config.syncName none z.2)
      (fun _ _ h => fades_sought h) (fun _ _ h => fades_sought h) hsync
      (wp_removeContainer_exit (plain_containerName config .active) y)
    refine wp_seq (shielded_mono _ _ _) (removeContainer config.validatorName) _ y hkeeps ?_ ?_
    · intro _ z hz
      exact (wp_modify_bind ..).mpr ⟨Fades.refl z.2, hz.2, hz.1.2⟩
    · intro e z hz
      obtain ⟨⟨⟨b, hb⟩, -⟩, -⟩ := hz
      cases hb
  · intro e y hy
    obtain ⟨⟨b, hb⟩, -⟩ := hy
    cases hb

/-! ### The invariant -/

abbrev Exiting := Pool Docker.api State String Bool Watched Flow

/-- Until the clean-up has begun the flag is down; from then on it keeps its
promise. -/
inductive Leaving (config : Config) (p : Exiting) : Prop
  | before (hflag : p.shared.1.cleaningUp = false)
      (hstarts : ∀ f ∈ p.flows, f.1 ≠ .cleanUp → Unflagged f.2)
      (hcleanUp : ∀ f ∈ p.flows, f.1 = .cleanUp → f.2 = cleanUp config)
  | begun (hcleanUp : ∀ f ∈ p.flows, f.1 = .cleanUp →
      Promises fading fading (watching Unlooked .cleanUp) f.2 (fun _ y => Left config y.2)
        p.shared)
      (hstarted : ∃ f ∈ p.flows, f.1 = .cleanUp)

theorem step_fading {t : Flow} {m m' : Method Bool} {x y : State × Watched}
    (h : Async.Step (watching Unlooked t) m x m' y) : fading x y := by
  cases h with
  | serve hr => exact watching_fades hr
  | turn hs => exact Fades.refl _

theorem unflagged_step {t : Flow} {m m' : Method Bool} {x y : State × Watched}
    (hm : Unflagged m) (hx : x.1.cleaningUp = false)
    (h : Async.Step (watching Unlooked t) m x m' y) :
    Unflagged m' ∧ y.1.cleaningUp = false := by
  cases h with
  | serve hr => exact ⟨hm _, hx⟩
  | turn hs => exact maintains_turn hm hx

theorem left_rely (config : Config) (_ : Except String Bool) (x y : State × Watched)
    (hx : Left config x.2) (hy : fading x y) : Left config y.2 := fades_left hy hx

/-- The first move of the clean-up. -/
theorem cleanUp_begins {config : Config} {t : Flow} {m m' : Method Bool} {x y : State × Watched}
    (hm : m = cleanUp config) (hx : x.1.cleaningUp = false)
    (h : Async.Step (watching Unlooked t) m x m' y) :
    Promises fading fading (watching Unlooked .cleanUp) m' (fun _ y => Left config y.2) y := by
  have hsuspended : m.suspended = false := hm ▸ rfl
  cases h with
  | serve hr => cases hsuspended
  | @turn m s w hs =>
    have hwp := wp_cleanUp_exit config (s, w) hx
    rw [← hm] at hwp
    obtain ⟨-, hrest⟩ := wp_turn fading_refl fading_trans m (s, w) hwp
    exact fun z hz => wp_wait fading_trans _ (left_rely config) (turn_suspended m s) _ z hz hrest

/-- At most one of the flows is the clean-up. -/
def Once (fs : List (Flow × Method Bool)) : Prop := (fs.map Prod.fst).count .cleanUp ≤ 1

theorem once_launch {t : Flow} {m : Method Bool} {fs : List (Flow × Method Bool)} (h : Once fs)
    (hlaunch : OneCleanUp t fs) : Once (fs ++ [(t, m)]) := by
  unfold Once at h ⊢
  rw [List.map_append, List.count_append]
  cases t with
  | start mode =>
    have hzero : ([(Flow.start mode, m)].map Prod.fst).count .cleanUp = 0 := rfl
    omega
  | cleanUp =>
    have hzero : (fs.map Prod.fst).count .cleanUp = 0 := by
      rw [List.count_eq_zero, List.mem_map]
      exact fun ⟨f, hf, hcleanUp⟩ => hlaunch f hf hcleanUp
    have hone : ([(Flow.cleanUp, m)].map Prod.fst).count .cleanUp = 1 := rfl
    omega

theorem once_others {m : Method Bool} {pre post : List (Flow × Method Bool)}
    (h : Once (pre ++ (.cleanUp, m) :: post)) : ∀ f ∈ pre ++ post, f.1 ≠ .cleanUp := by
  unfold Once at h
  rw [List.map_append, List.map_cons, List.count_append, List.count_cons_self] at h
  have hpre : Flow.cleanUp ∉ pre.map Prod.fst := List.count_eq_zero.mp (by omega)
  have hpost : Flow.cleanUp ∉ post.map Prod.fst := List.count_eq_zero.mp (by omega)
  intro f hf hcleanUp
  rcases List.mem_append.mp hf with hmem | hmem
  · exact hpre (hcleanUp ▸ List.mem_map_of_mem hmem)
  · exact hpost (hcleanUp ▸ List.mem_map_of_mem hmem)

theorem mem_middle {β : Type} {pre post : List β} {b f : β} (hf : f ∈ pre ++ b :: post) :
    f = b ∨ f ∈ pre ++ post := by
  rcases List.mem_append.mp hf with hmem | hmem
  · exact .inr (List.mem_append_left post hmem)
  · rcases List.mem_cons.mp hmem with hb | hmem
    · exact .inl hb
    · exact .inr (List.mem_append_right pre hmem)

theorem mem_around {β : Type} {pre post : List β} {b f : β} (hf : f ∈ pre ++ post) :
    f ∈ pre ++ b :: post :=
  (List.Sublist.append_left (List.sublist_cons_self b post) pre).subset hf

theorem leaving_launch {config : Config} {t : Flow} {p : Exiting} (hp : Leaving config p)
    (hlaunch : OneCleanUp t p.flows) :
    Leaving config ⟨p.shared, p.flows ++ [(t, t.code config)]⟩ := by
  cases hp with
  | before hflag hstarts hcleanUp =>
    have hstarts' : ∀ f ∈ p.flows ++ [(t, t.code config)], f.1 ≠ .cleanUp → Unflagged f.2 := by
      intro f hf hne
      rcases List.mem_append.mp hf with hmem | hmem
      · exact hstarts f hmem hne
      · cases List.mem_singleton.mp hmem
        cases t with
        | start mode => exact unflagged_start config mode
        | cleanUp => exact absurd rfl hne
    have hcleanUp' : ∀ f ∈ p.flows ++ [(t, t.code config)], f.1 = .cleanUp →
        f.2 = cleanUp config := by
      intro f hf heq
      rcases List.mem_append.mp hf with hmem | hmem
      · exact hcleanUp f hmem heq
      · cases List.mem_singleton.mp hmem
        cases heq
        rfl
    exact .before hflag hstarts' hcleanUp'
  | begun hcleanUp hstarted =>
    obtain ⟨f, hf, hfirst⟩ := hstarted
    refine .begun (fun g hg heq => ?_) ⟨f, List.mem_append_left _ hf, hfirst⟩
    rcases List.mem_append.mp hg with hmem | hmem
    · exact hcleanUp g hmem heq
    · cases List.mem_singleton.mp hmem
      cases heq
      exact absurd hfirst (hlaunch f hf)

theorem leaving_flow {config : Config} {t : Flow} {m m' : Method Bool} {x y : State × Watched}
    {pre post : List (Flow × Method Bool)} (honce : Once (pre ++ (t, m) :: post))
    (hp : Leaving config ⟨x, pre ++ (t, m) :: post⟩)
    (h : Async.Step (watching Unlooked t) m x m' y) :
    Leaving config ⟨y, pre ++ (t, m') :: post⟩ := by
  have hself : (t, m) ∈ pre ++ (t, m) :: post := List.mem_append_right _ (List.mem_cons_self ..)
  have hself' : (t, m') ∈ pre ++ (t, m') :: post :=
    List.mem_append_right _ (List.mem_cons_self ..)
  cases hp with
  | before hflag hstarts hcleanUp =>
    cases t with
    | start mode =>
      obtain ⟨hm', hflag'⟩ := unflagged_step (hstarts _ hself (by simp)) hflag h
      have hstarts' : ∀ f ∈ pre ++ (.start mode, m') :: post, f.1 ≠ .cleanUp → Unflagged f.2 := by
        intro f hf hne
        rcases mem_middle hf with rfl | hmem
        · exact hm'
        · exact hstarts f (mem_around hmem) hne
      have hcleanUp' : ∀ f ∈ pre ++ (.start mode, m') :: post, f.1 = .cleanUp →
          f.2 = cleanUp config := by
        intro f hf heq
        rcases mem_middle hf with rfl | hmem
        · cases heq
        · exact hcleanUp f (mem_around hmem) heq
      exact .before hflag' hstarts' hcleanUp'
    | cleanUp =>
      refine .begun (fun f hf heq => ?_) ⟨_, hself', rfl⟩
      rcases mem_middle hf with rfl | hmem
      · exact cleanUp_begins (hcleanUp _ hself rfl) hflag h
      · exact absurd heq (once_others honce f hmem)
  | begun hcleanUp hstarted =>
    obtain ⟨f, hf, hfirst⟩ := hstarted
    cases t with
    | start mode =>
      have hmem : f ∈ pre ++ post := (mem_middle hf).resolve_left fun hf => by
        rw [hf] at hfirst
        cases hfirst
      refine .begun (fun g hg heq => ?_) ⟨f, mem_around hmem, hfirst⟩
      rcases mem_middle hg with rfl | hmem
      · cases heq
      · exact promises_rely fading_trans (hcleanUp g (mem_around hmem) heq) (step_fading h)
    | cleanUp =>
      refine .begun (fun g hg heq => ?_) ⟨_, hself', rfl⟩
      rcases mem_middle hg with rfl | hmem
      · exact (promises_step fading_refl fading_trans fading_refl fading_trans
          (left_rely config) (hcleanUp _ hself rfl) h).2
      · exact absurd heq (once_others honce g hmem)

theorem leaving_reachable {config : Config} {s : State} (hs : s.cleaningUp = false) {h : Host}
    {p : Exiting} (hp : (exiting config OneCleanUp Unlooked).Reachable (s, ⟨h, []⟩) p) :
    Once p.flows ∧ Leaving config p := by
  refine System.reachable_invariant (I := fun p => Once p.flows ∧ Leaving config p) hp
    ⟨Nat.zero_le 1, .before hs (fun f hf => by cases hf) fun f hf => by cases hf⟩ ?_
  intro p q ⟨honce, hleaving⟩ hstep
  cases hstep with
  | launch t hlaunch => exact ⟨once_launch honce hlaunch, leaving_launch hleaving hlaunch⟩
  | flow h =>
    refine ⟨?_, leaving_flow honce hleaving h⟩
    unfold Once at honce ⊢
    simpa using honce
  | world h => cases h

/-! ### The exit -/

/-- If no container is created once the clean-up has looked for it, the clean-up
leaves neither of the two containers. -/
theorem exit_leaves_nothing (config : Config) (s : State) (hs : s.cleaningUp = false) (h : Host)
    (p : Exiting) (hp : (exiting config OneCleanUp Unlooked).Reachable (s, ⟨h, []⟩) p)
    (m : Method Bool) (hm : (.cleanUp, m) ∈ p.flows) (hended : m.ended = true) :
    Clear config p.shared.2.host := by
  obtain ⟨-, hleaving⟩ := leaving_reachable hs hp
  cases hleaving with
  | before hflag hstarts hcleanUp =>
    rw [show m = cleanUp config from hcleanUp _ hm rfl] at hended
    cases hended
  | begun hcleanUp hstarted =>
    obtain ⟨out, hsync, hvalidator⟩ := promises_ended fading_refl (hcleanUp _ hm rfl) hended
    exact ⟨hvalidator.2, hsync.2⟩

/-- A working daemon that refuses to create a container that was looked for. -/
def watched (t : Flow) : Script Docker.api String Watched := fun c w =>
  if ∀ name ∈ createdName c, w.host.Present name ∨ name ∉ w.looked then
    some ((answer c w.host).1, ⟨(answer c w.host).2, t.looks c ++ w.looked⟩)
  else none

theorem watched_watching (t : Flow) (c : Docker.Call) (w : Watched) (r : Except String c.Ret)
    (w' : Watched) (h : watched t c w = some (r, w')) : watching Unlooked t c w r w' := by
  unfold watched at h
  split at h
  · next hcreates =>
    cases h
    refine ⟨answer_daemon c w.host, rfl, fun name hname hnew => ?_⟩
    exact (hcreates name hname).resolve_left hnew
  · cases h

/-- A passive start creates its container. -/
def created : Method Bool × (State × Watched) :=
  (advance (watched (.start .passive)) 10 (start plainConfig .passive)
    ({}, ⟨Host.empty, []⟩)).get (by decide +kernel)

/-- The clean-up removes it, -/
def cleaned : Method Bool × (State × Watched) :=
  (advance (watched .cleanUp) 4 (cleanUp plainConfig) created.2).get (by decide +kernel)

/-- and the start fails to start it. -/
def refused : Method Bool × (State × Watched) :=
  (advance (watched (.start .passive)) 14 created.1 cleaned.2).get (by decide +kernel)

def removed : Exiting := ⟨refused.2, [(.start .passive, refused.1), (.cleanUp, cleaned.1)]⟩

theorem removed_reachable : (exiting plainConfig OneCleanUp Unlooked).Reachable
    ({}, ⟨Host.empty, []⟩) removed := by
  have hcreated : Steps (watching Unlooked (.start .passive))
      (start plainConfig .passive, ({}, ⟨Host.empty, []⟩)) created :=
    advance_steps (watched_watching _) (Option.some_get _).symm
  have hcleaned : Steps (watching Unlooked .cleanUp) (cleanUp plainConfig, created.2) cleaned :=
    advance_steps (watched_watching _) (Option.some_get _).symm
  have hrefused : Steps (watching Unlooked (.start .passive)) (created.1, cleaned.2) refused :=
    advance_steps (watched_watching _) (Option.some_get _).symm
  have hstart : (exiting plainConfig OneCleanUp Unlooked).Step ⟨({}, ⟨Host.empty, []⟩), []⟩
      ⟨({}, ⟨Host.empty, []⟩), [(.start .passive, start plainConfig .passive)]⟩ :=
    .launch (Flow.start .passive) trivial
  have hcleanUp : (exiting plainConfig OneCleanUp Unlooked).Step
      ⟨created.2, [(.start .passive, created.1)]⟩
      ⟨created.2, [(.start .passive, created.1), (.cleanUp, cleanUp plainConfig)]⟩ := by
    refine .launch Flow.cleanUp fun f hf => ?_
    rw [List.mem_singleton.mp hf]
    decide
  have hfirst := System.steps_flow (exiting plainConfig OneCleanUp Unlooked) hcreated [] []
  have hsecond := System.steps_flow (exiting plainConfig OneCleanUp Unlooked) hcleaned
    [(.start .passive, created.1)] []
  have hthird := System.steps_flow (exiting plainConfig OneCleanUp Unlooked) hrefused []
    [(.cleanUp, cleaned.1)]
  exact (hfirst.head hstart).trans ((hsecond.head hcleanUp).trans hthird)

/-- The container was there when the clean-up began, and is gone at the end. -/
theorem exit_leaves_nothing_removed :
    created.2.2.host.Present plainConfig.syncName ∧
    removed.flows.map (fun f => (f.1, f.2.ended)) = [(.start .passive, true), (.cleanUp, true)] ∧
    Clear plainConfig removed.shared.2.host := by
  have hended : cleaned.1.ended = true := by decide +kernel
  have hcleanUp : (.cleanUp, cleaned.1) ∈ removed.flows := by simp [removed]
  exact ⟨by decide +kernel, by decide +kernel, exit_leaves_nothing plainConfig {} rfl Host.empty
    removed removed_reachable cleaned.1 hcleanUp hended⟩

/-! ### A container created after the lookup -/

/-- The clean-up overlaps freely with the starts in flight. -/
def leavingFreely (config : Config) : System Docker.api State String Bool Host Flow :=
  node config InFlight (fun _ => daemon) fun _ _ => False

instance (config : Config) (t : Flow) (fs : List (Flow × Method Bool)) :
    Decidable ((leavingFreely config).launches t fs) :=
  inferInstanceAs (Decidable (∀ f ∈ fs, f.1 ≠ .cleanUp))

/-- A passive start is about to create its container when the clean-up looks for
it; the container is created and started before the clean-up returns. -/
def lateStart : List (Move Unit Flow) :=
  [.launch (.start .passive), .turn 0] ++ proceed 0 () 9 ++ [.launch .cleanUp, .turn 1] ++
    proceed 1 () 1 ++ proceed 0 () 2 ++ proceed 1 () 1

def exited : Flows :=
  Pool.play (leavingFreely plainConfig) (fun _ => answer) ⟨({}, Host.empty), []⟩ lateStart

theorem exit_leaves_late_start : ¬ ∀ (config : Config) (s : State), s.cleaningUp = false →
    ∀ (h : Host) (p : Flows), (leavingFreely config).Reachable (s, h) p →
    ∀ m : Method Bool, (.cleanUp, m) ∈ p.flows → m.ended = true → Clear config p.shared.2 := by
  intro hall
  have hreach : (leavingFreely plainConfig).Reachable ({}, Host.empty) exited :=
    Pool.play_steps (fun _ _ => answer_daemon) lateStart _
  have hcleanUp : exited.flows[1]?.map (fun f => (f.1, f.2.ended)) = some (.cleanUp, true) := by
    decide +kernel
  obtain ⟨⟨t, m⟩, hm, ht⟩ := Option.map_eq_some_iff.mp hcleanUp
  simp only [Prod.mk.injEq] at ht
  obtain ⟨rfl, hended⟩ := ht
  have hclear := hall plainConfig {} rfl Host.empty exited hreach m (List.mem_of_getElem? hm) hended
  exact absurd hclear (by decide +kernel)

end Archipel.Polkadot
