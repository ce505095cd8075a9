import Archipel.Docker.Client
import Archipel.Async.Shared

/-!
# Starting one container while another must not run

`Keeps up down` is what a function that starts `up` does to the host and what it
needs of the others: only containers of the name `up` appear, none of the name
`down` appears or starts, and `up` starts only when `down` does not run. The
wrappers of `docker.js` are proved against it, on a daemon whose calls may fail.
-/

namespace Archipel.Docker
open Async

structure Keeps (up down : String) (h h' : Host) : Prop where
  down_from : ∀ c' ∈ h'.containers, c'.name = down →
    ∃ c ∈ h.containers, c.name = down ∧ c.id = c'.id ∧ (c'.running = true → c.running = true)
  up_from : h'.Running up → h.Running up ∨ ¬ h'.Running down
  named_from : ∀ c' ∈ h'.containers, c'.name = up ∨
    ∃ c ∈ h.containers, c.name = c'.name ∧ c.id = c'.id

namespace Keeps

variable {up down : String} {h h' h'' : Host}

theorem down_running (hk : Keeps up down h h') (hr : h'.Running down) : h.Running down := by
  obtain ⟨c', hc', hn', hr'⟩ := hr
  obtain ⟨c, hc, hn, -, hr⟩ := hk.down_from c' hc' hn'
  exact ⟨c, hc, hn, hr hr'⟩

theorem refl (up down : String) (h : Host) : Keeps up down h h :=
  ⟨fun c hc hn => ⟨c, hc, hn, rfl, id⟩, .inl, fun c hc => .inr ⟨c, hc, rfl, rfl⟩⟩

theorem trans (h₁ : Keeps up down h h') (h₂ : Keeps up down h' h'') : Keeps up down h h'' := by
  constructor
  · intro c'' hc'' hn''
    obtain ⟨c', hc', hn', hid', hr'⟩ := h₂.down_from c'' hc'' hn''
    obtain ⟨c, hc, hn, hid, hr⟩ := h₁.down_from c' hc' hn'
    exact ⟨c, hc, hn, hid.trans hid', fun h => hr (hr' h)⟩
  · intro hup
    rcases h₂.up_from hup with hup' | hdown
    · rcases h₁.up_from hup' with hup | hdown'
      · exact .inl hup
      · exact .inr fun hd => hdown' (h₂.down_running hd)
    · exact .inr hdown
  · intro c'' hc''
    rcases h₂.named_from c'' hc'' with hup | ⟨c', hc', hn', hid'⟩
    · exact .inl hup
    · rcases h₁.named_from c' hc' with hup | ⟨c, hc, hn, hid⟩
      · exact .inl (hn'.symm.trans hup)
      · exact .inr ⟨c, hc, hn.trans hn', hid.trans hid'⟩

theorem exclusive (hk : Keeps up down h h') (hx : ¬ (h.Running up ∧ h.Running down)) :
    ¬ (h'.Running up ∧ h'.Running down) := by
  rintro ⟨hup, hdown⟩
  rcases hk.up_from hup with hup' | hdown'
  · exact hx ⟨hup', hk.down_running hdown⟩
  · exact hdown' hdown

theorem of_containers (hc : h'.containers = h.containers) : Keeps up down h h' :=
  ⟨fun c hm hn => ⟨c, hc ▸ hm, hn, rfl, id⟩, fun hup => .inl ((Host.running_congr hc up).mp hup),
    fun c hm => .inr ⟨c, hc ▸ hm, rfl, rfl⟩⟩

theorem of_subset (hc : ∀ c' ∈ h'.containers, ∃ c ∈ h.containers, c.name = c'.name ∧
    c.id = c'.id ∧ (c'.running = true → c.running = true)) : Keeps up down h h' := by
  constructor
  · intro c' hc' hn'
    obtain ⟨c, hm, hn, hid, hr⟩ := hc c' hc'
    exact ⟨c, hm, hn.trans hn', hid, hr⟩
  · rintro ⟨c', hc', hn', hr'⟩
    obtain ⟨c, hm, hn, -, hr⟩ := hc c' hc'
    exact .inl ⟨c, hm, hn.trans hn', hr hr'⟩
  · intro c' hc'
    obtain ⟨c, hm, hn, hid, -⟩ := hc c' hc'
    exact .inr ⟨c, hm, hn, hid⟩

theorem remove (h : Host) (id : ContainerId) : Keeps up down h (h.remove id) :=
  of_subset fun c hc => ⟨c, (Host.mem_remove.mp hc).1, rfl, rfl, fun hr => hr⟩

theorem stop (h : Host) (id : ContainerId) : Keeps up down h (h.setRunning false id) := by
  refine of_subset fun c' hc' => ?_
  obtain ⟨c, hc, rfl⟩ := Host.mem_setRunning.mp hc'
  refine ⟨c, hc, by simp, by simp, ?_⟩
  unfold Container.setRunning
  split
  · exact fun hr => absurd hr (by simp)
  · exact fun hr => hr

theorem add {data : ContainerData} {id : ContainerId} {hid : ∀ c ∈ h.containers, c.id ≠ id}
    {hname : ∀ c ∈ h.containers, c.name ≠ data.name} (hup : data.name = up) (hne : up ≠ down) :
    Keeps up down h (h.add id data hid hname) := by
  constructor
  · intro c hc hn
    rcases Host.mem_add.mp hc with hc | rfl
    · exact ⟨c, hc, hn, rfl, fun hr => hr⟩
    · exact absurd (hup.symm.trans hn) hne
  · rintro ⟨c, hc, hn, hr⟩
    rcases Host.mem_add.mp hc with hc | rfl
    · exact .inl ⟨c, hc, hn, hr⟩
    · cases hr
  · intro c hc
    rcases Host.mem_add.mp hc with hc | rfl
    · exact .inr ⟨c, hc, rfl, rfl⟩
    · exact .inl hup

theorem start {id : ContainerId} (hid : ∀ c ∈ h.containers, c.id = id → c.name ≠ down)
    (hdown : ¬ h.Running down) : Keeps up down h (h.setRunning true id) := by
  have hsame : ∀ c ∈ h.containers, c.name = down → c.setRunning true id = c := by
    intro c hc hn
    unfold Container.setRunning
    rw [if_neg fun h => hid c hc h hn]
  have hfrom : ∀ c' ∈ (h.setRunning true id).containers, c'.name = down → c' ∈ h.containers := by
    intro c' hc' hn'
    obtain ⟨c, hc, rfl⟩ := Host.mem_setRunning.mp hc'
    rw [hsame c hc (by simpa using hn')]
    exact hc
  constructor
  · exact fun c' hc' hn' => ⟨c', hfrom c' hc' hn', hn', rfl, fun hr => hr⟩
  · refine fun _ => .inr ?_
    rintro ⟨c', hc', hn', hr'⟩
    exact hdown ⟨c', hfrom c' hc' hn', hn', hr'⟩
  · intro c' hc'
    obtain ⟨c, hc, rfl⟩ := Host.mem_setRunning.mp hc'
    exact .inr ⟨c, hc, by simp, by simp⟩

end Keeps

/-! ### A daemon that fails -/

/-- The name or identifier on whose behalf a container call is made. -/
def Call.subject : Call → Option String
  | .listContainers nameOrId => some nameOrId
  | .inspectContainer nameOrId _ => some nameOrId
  | .createContainer data => some data.name
  | .startContainer nameOrId _ => some nameOrId
  | .stopContainer nameOrId _ => some nameOrId
  | .removeContainer nameOrId _ => some nameOrId
  | _ => none

def Call.startsOnly (name : String) (c : Call) : Prop := c.harmless ∨ c.subject = some name

def Call.spares (name : String) (c : Call) : Prop := c.harmless ∨ c.subject ≠ some name

theorem startsOnly_startContainer {σ : Type} (data : ContainerData) :
    OnlyCalls (A := api) (Call.startsOnly data.name)
      (startContainer data : Async api σ String Bool) := by
  have hharmless : ∀ {α : Type} {m : Async api σ String α}, Quiet m →
      OnlyCalls (A := api) (Call.startsOnly data.name) m := fun hm =>
    onlyCalls_mono (fun _ => .inl) hm.harmless
  have hstart : ∀ id, OnlyCalls (A := api) (Call.startsOnly data.name)
      (do let _ ← request (.startContainer data.name id); pure true : Async api σ String Bool) :=
    fun id => onlyCalls_bind (onlyCalls_request (.startContainer data.name id) (.inr rfl))
      fun _ => trivial
  refine onlyCalls_tryCatch (onlyCalls_bind (hharmless (quiet_getContainer _)) fun container => ?_)
    fun _ => trivial
  cases container with
  | some container =>
    dsimp only
    split
    · exact hstart container.id
    · trivial
  | none =>
    have hcreate : ∀ pulled : Bool, OnlyCalls (A := api) (Call.startsOnly data.name)
        (if !pulled then pure false else do
          let id ← request (.createContainer data)
          let _ ← request (.startContainer data.name id)
          pure true : Async api σ String Bool) := by
      intro pulled
      split
      · trivial
      · exact onlyCalls_bind (onlyCalls_request (.createContainer data) (.inr rfl)) hstart
    refine onlyCalls_bind (hharmless (quiet_getImage _)) fun image => ?_
    dsimp only
    split
    · exact hcreate true
    · exact onlyCalls_bind (hharmless (quiet_pullImage _)) hcreate

/-- A daemon whose calls may fail, before or after their effect, apart from the
calls that are spared. -/
def faulty (spared : Call → Host → Prop) : Env api String Host := fun c h r h' =>
  daemon c h r h' ∨
    (¬ spared c h ∧ (∃ e, r = .error e) ∧ (h' = h ∨ ∃ r', daemon c h r' h'))

theorem faulty_effect {spared : Call → Host → Prop} {c : Call} {h h' : Host}
    {r : Except String c.Ret} (hr : faulty spared c h r h') : h' = h ∨ ∃ r', daemon c h r' h' := by
  rcases hr with hr | ⟨-, -, hr⟩
  · exact .inr ⟨r, hr⟩
  · exact hr

theorem harmless_keeps (up down : String) {c : Call} (hc : c.harmless) {h h' : Host}
    {r : Except String c.Ret} (hr : daemon c h r h') : Keeps up down h h' := by
  cases c with
  | createContainer data => cases hc
  | startContainer nameOrId id => cases hc
  | listContainers nameOrId | inspectImage name | inspectVolume name | setTimeout ms
  | cryptoWaitReady =>
    simp only [daemon] at hr
    exact .of_containers (by simp [hr])
  | inspectContainer nameOrId id =>
    simp only [daemon] at hr
    exact .of_containers (by simp [hr.1])
  | post method params =>
    simp only [daemon] at hr
    exact .of_containers (by rw [hr])
  | pull name | createVolume name =>
    simp only [daemon] at hr
    exact .of_containers (by simp [hr])
  | stopContainer nameOrId id =>
    simp only [daemon] at hr
    split at hr
    · split at hr
      · rw [hr.2]
        exact .stop h id
      · rw [hr.2]
        exact .refl up down h
    · rw [hr.2]
      exact .refl up down h
  | removeContainer nameOrId id =>
    simp only [daemon] at hr
    split at hr
    · rw [hr.2]
      exact .remove h id
    · rw [hr.2]
      exact .refl up down h

section Specs
variable {σ α : Type} {up down : String} {spared : Call → Host → Prop}

def rely (up down : String) (x y : σ × Host) : Prop := Keeps up down x.2 y.2

theorem rely_refl (x : σ × Host) : rely up down x x := Keeps.refl up down x.2

theorem rely_trans (x y z : σ × Host) (hxy : rely up down x y) (hyz : rely up down y z) :
    rely up down x z := hxy.trans hyz

/-- The calls of a function that starts `up`, among functions that do the same
or start nothing. -/
abbrev amongStarts (σ : Type) (up down : String) (spared : Call → Host → Prop) :
    CallSpec api String (σ × Host) :=
  shielded (rely up down) (rely up down) (faulty spared)

/-- A fact about the host that no `Keeps` step breaks. -/
def Stable (up down : String) (I : Host → Prop) : Prop := ∀ h h', Keeps up down h h' → I h → I h'

theorem stable_true : Stable up down fun _ => True := fun _ _ _ _ => trivial

theorem stable_not_running : Stable up down fun h => ¬ h.Running down :=
  fun _ _ hk hn hr => hn (hk.down_running hr)

theorem stable_exclusive : Stable up down fun h => ¬ (h.Running up ∧ h.Running down) :=
  fun _ _ hk hn => hk.exclusive hn

def Named (up : String) (id : ContainerId) (h : Host) : Prop :=
  ∀ c ∈ h.containers, c.id = id → c.name = up

theorem stable_named (id : ContainerId) : Stable up down (Named up id) := by
  intro h h' hk hn c' hc' hid'
  rcases hk.named_from c' hc' with hup | ⟨c, hc, hcn, hid⟩
  · exact hup
  · rw [← hcn]
    exact hn c hc (hid.trans hid')

def OnlyNamed (down : String) (id : ContainerId) (h : Host) : Prop :=
  ∀ c ∈ h.containers, c.name = down → c.id = id

theorem stable_onlyNamed (id : ContainerId) : Stable up down (OnlyNamed down id) := by
  intro h h' hk hn c' hc' hname
  obtain ⟨c, hc, hcn, hid, -⟩ := hk.down_from c' hc' hname
  exact hid.symm.trans (hn c hc hcn)

/-- What a lookup of `down` tells: the identifier it has, or that it does not run. -/
def Found (down : String) : Option ContainerId → Host → Prop
  | none, h => ¬ h.Running down
  | some id, h => OnlyNamed down id h

theorem stable_found (found : Option ContainerId) : Stable up down (Found down found) := by
  cases found with
  | none => exact stable_not_running
  | some id => exact stable_onlyNamed id

def listed (name : String) : Except String (List Summary) → Option ContainerId
  | .ok containers => (containers.find? fun c => Summary.matches c name).map Summary.id
  | .error _ => none

theorem Stable.and {I J : Host → Prop} (hI : Stable up down I) (hJ : Stable up down J) :
    Stable up down fun h => I h ∧ J h :=
  fun h h' hk hh => ⟨hI h h' hk hh.1, hJ h h' hk hh.2⟩

/-- The rule of an awaited call: its effect is a `Keeps` step, and what holds
right after it is stable. -/
theorem amongStarts_call (c : Call) {Q : Except String c.Ret → Host → Prop}
    (hQ : ∀ r, Stable up down (Q r)) {x : σ × Host}
    (hc : ∀ h, Keeps up down x.2 h → ∀ r h', faulty spared c h r h' →
      Keeps up down h h' ∧ Q r h') :
    amongStarts σ up down spared c (fun r y => Q r y.2) x := by
  intro y hxy r w hr
  obtain ⟨hk, hq⟩ := hc y.2 hxy r w hr
  exact ⟨hk, fun z hz => hQ r w z.2 hz hq⟩

theorem faulty_harmless_keeps (up down : String) {c : Call} (hc : c.harmless) {h h' : Host}
    {r : Except String c.Ret} (hr : faulty spared c h r h') : Keeps up down h h' := by
  rcases faulty_effect hr with rfl | ⟨r', hr'⟩
  · exact .refl up down h'
  · exact harmless_keeps up down hc hr'

theorem wp_harmless {I : Host → Prop} (hI : Stable up down I) {m : Async api σ String α}
    (hm : Harmless m) (x : σ × Host) (hx : I x.2) :
    wp (amongStarts σ up down spared) (rely up down) m (fun _ y => I y.2) x := by
  refine wp_invariant (shielded_mono _ _ _) ?_ ?_ hm x hx
  · exact fun y s hy => ⟨Keeps.refl up down y.2, hy⟩
  · intro c hc y hy
    refine amongStarts_call c (fun _ => hI) fun h hyh r h' hr => ?_
    have hk := faulty_harmless_keeps up down hc hr
    exact ⟨hk, hI h h' hk (hI y.2 h hyh hy)⟩

/-! ### The wrappers -/

/-- The calls that concern the container that must not run are spared while it
runs. -/
def sparing (down : String) : Call → Host → Prop :=
  fun c h => c.subject = some down ∧ h.Running down

theorem faulty_sparing {c : Call} (hs : c.subject = some down) {h h' : Host}
    {r : Except String c.Ret} (hr : faulty (sparing down) c h r h') :
    daemon c h r h' ∨ (¬ h.Running down ∧ ∃ e, r = .error e) := by
  rcases hr with hr | ⟨hn, he, -⟩
  · exact .inl hr
  · exact .inr ⟨fun hd => hn ⟨hs, hd⟩, he⟩

theorem wp_request_seq (c : Call) {Q : Except String c.Ret → Host → Prop}
    (hQ : ∀ r, Stable up down (Q r)) (f : c.Ret → Async api σ String α)
    {P : Except String α → σ × Host → Prop} {x : σ × Host}
    (hc : ∀ h, Keeps up down x.2 h → ∀ r h', faulty spared c h r h' → Keeps up down h h' ∧ Q r h')
    (hok : ∀ a (y : σ × Host), Q (.ok a) y.2 →
      wp (amongStarts σ up down spared) (rely up down) (f a) P y)
    (herr : ∀ e (y : σ × Host), Q (.error e) y.2 → P (.error e) y) :
    wp (amongStarts σ up down spared) (rely up down) (request c >>= f) P x := by
  refine wp_seq (P := fun r y => Q r y.2) (shielded_mono _ _ _) (request c) f x ?_ hok herr
  exact (wp_call (amongStarts σ up down spared) (rely up down) c _ x).mpr
    (amongStarts_call c hQ hc)

theorem wp_getContainer_down (hplain : Plain down) (x : σ × Host) :
    wp (amongStarts σ up down (sparing down)) (rely up down) (getContainer down)
      (fun out y => ∃ container : Option Instance, out = .ok container ∧
        Found down (container.map Instance.id) y.2) x := by
  refine (wp_tryCatch ..).mpr ?_
  refine wp_request_seq (.listContainers down) (Q := fun r h => Found down (listed down r) h)
    (fun r => stable_found _) _ ?_ ?_ ?_
  · intro h _ r h' hr
    have hk := faulty_harmless_keeps up down (c := .listContainers down)
      trivial hr
    refine ⟨hk, ?_⟩
    rcases faulty_sparing rfl hr with ⟨rfl, rfl⟩ | ⟨hn, e, rfl⟩
    · show Found down ((List.find? (Summary.matches · down)
        (h'.containers.map Container.summary)).map Summary.id) h'
      cases hf : (h'.containers.map Container.summary).find? fun c => Summary.matches c down with
      | none =>
        rintro ⟨c, hc, hn, -⟩
        exact find_matches_none h' hplain hf c hc hn
      | some found =>
        obtain ⟨c, hc, hid, hn⟩ := find_matches_some h' hplain hf
        intro d hd hdn
        rw [h'.eq_of_name hd hc (hdn.trans hn.symm), hid]
    · exact fun hd => hn (hk.down_running hd)
  · intro containers y hy
    have hy : Found down ((List.find? (Summary.matches · down) containers).map Summary.id) y.2 := hy
    cases hfind : List.find? (Summary.matches · down) containers with
    | none =>
      rw [hfind] at hy
      exact ⟨none, rfl, hy⟩
    | some found =>
      rw [hfind] at hy
      refine wp_request_seq (.inspectContainer down found.id)
        (Q := fun r h => Found down (r.toOption.map fun _ => found.id) h)
        (fun r => stable_found _) _ ?_ (fun _ _ hz => ⟨some ⟨found.id, _⟩, rfl, hz⟩)
        fun _ _ hz => ⟨none, rfl, hz⟩
      intro h hk r h' hr
      have hk' := faulty_harmless_keeps up down
        (c := .inspectContainer down found.id) trivial hr
      refine ⟨hk', ?_⟩
      have hon := stable_onlyNamed found.id y.2 h hk hy
      rcases faulty_sparing rfl hr with ⟨rfl, rfl⟩ | ⟨hn, e, rfl⟩
      · cases hfound : h'.find found.id with
        | some c => exact hon
        | none =>
          rintro ⟨c, hc, hcn, -⟩
          exact Host.find_none hfound c hc (hon c hc hcn)
      · exact fun hd => hn (hk'.down_running hd)
  · exact fun e y hy => ⟨none, rfl, hy⟩

theorem wp_removeContainer_down (hplain : Plain down) (x : σ × Host) :
    wp (amongStarts σ up down (sparing down)) (rely up down) (removeContainer down)
      (fun _ y => ¬ y.2.Running down) x := by
  refine (wp_tryCatch ..).mpr (wp_seq (shielded_mono _ _ _) (getContainer down) _ x
    (wp_getContainer_down hplain x) ?_ ?_)
  · intro container y hy
    obtain ⟨container, hcontainer, hy⟩ := hy
    cases hcontainer
    cases container with
    | none => exact hy
    | some container =>
      refine wp_request_seq (.removeContainer down container.id)
        (Q := fun _ h => ¬ h.Running down) (fun _ => stable_not_running) _ ?_ (fun _ _ hz => hz)
        fun _ _ hz => hz
      intro h hk r h' hr
      have hk' := faulty_harmless_keeps up down
        (c := .removeContainer down container.id) trivial hr
      refine ⟨hk', ?_⟩
      have hon := stable_onlyNamed container.id y.2 h hk hy
      rcases faulty_sparing rfl hr with hd | ⟨hn, -⟩
      · simp only [daemon] at hd
        cases hfound : h.find container.id with
        | some c =>
          rw [hfound] at hd
          rw [hd.2]
          rintro ⟨c', hc', hcn, -⟩
          obtain ⟨hm, hid⟩ := Host.mem_remove.mp hc'
          exact hid (hon c' hm hcn)
        | none =>
          rw [hfound] at hd
          rw [hd.2]
          rintro ⟨c', hc', hcn, -⟩
          exact Host.find_none hfound c' hc' (hon c' hc' hcn)
      · exact fun hd => hn (hk'.down_running hd)
  · intro e y hy
    obtain ⟨container, hcontainer, -⟩ := hy
    cases hcontainer

/-- The container that a lookup of `up` finds is named so, and what follows from
its running followed when it was inspected. -/
theorem wp_getContainer_up (hplain : Plain up) {I J : Host → Prop} (hI : Stable up down I)
    (hJ : Stable up down J) (hrun : ∀ h, I h → h.Running up → J h) (x : σ × Host) (hx : I x.2) :
    wp (amongStarts σ up down spared) (rely up down) (getContainer up)
      (fun out y => I y.2 ∧ ∃ container : Option Instance, out = .ok container ∧
        ∀ c ∈ container, Named up c.id y.2 ∧ (c.description.running = true → J y.2)) x := by
  refine (wp_tryCatch ..).mpr ?_
  have hnone : ∀ c ∈ (none : Option Instance), ∀ h, Named up c.id h ∧
      (c.description.running = true → J h) := by simp
  refine wp_request_seq (.listContainers up)
    (Q := fun r h => I h ∧ ∀ id ∈ listed up r, Named up id h) ?_ _ ?_ ?_ ?_
  · exact fun r => hI.and fun h h' hk hh id hid => stable_named id h h' hk (hh id hid)
  · intro h hk r h' hr
    have hk' := faulty_harmless_keeps up down (c := .listContainers up)
      trivial hr
    refine ⟨hk', hI _ _ (hk.trans hk') hx, ?_⟩
    intro id hid
    rcases hr with ⟨rfl, rfl⟩ | ⟨-, ⟨e, rfl⟩, -⟩
    · obtain ⟨found, hf, rfl⟩ := Option.map_eq_some_iff.mp hid
      obtain ⟨c, hc, hcid, hn⟩ := find_matches_some h' hplain hf
      intro d hd hdid
      rw [h'.eq_of_id hd hc (hdid.trans hcid.symm)]
      exact hn
    · cases hid
  · intro containers y hy
    cases hfind : List.find? (Summary.matches · up) containers with
    | none => exact ⟨hy.1, none, rfl, fun c hc => hnone c hc y.2⟩
    | some found =>
      have hnamed := hy.2 found.id (congrArg (Option.map Summary.id) hfind)
      refine wp_request_seq (.inspectContainer up found.id)
        (Q := fun r h => I h ∧ ∀ description, r = .ok description →
          Named up found.id h ∧ (description.running = true → J h)) ?_ _ ?_ ?_
        fun _ z hz => ⟨hz.1, none, rfl, fun c hc => hnone c hc z.2⟩
      · refine fun r => hI.and fun h h' hk hh description hr => ?_
        obtain ⟨hn, hj⟩ := hh description hr
        exact ⟨stable_named _ h h' hk hn, fun hr => hJ h h' hk (hj hr)⟩
      · intro h hk r h' hr
        have hk' := faulty_harmless_keeps up down
          (c := .inspectContainer up found.id) trivial hr
        have hI' := hI _ _ (hk.trans hk') hy.1
        have hnamed' := stable_named found.id y.2 h' (hk.trans hk') hnamed
        refine ⟨hk', hI', ?_⟩
        intro description hdescription
        refine ⟨hnamed', fun hrunning => ?_⟩
        rcases hr with ⟨rfl, rfl⟩ | ⟨-, ⟨e, rfl⟩, -⟩
        · cases hfound : h'.find found.id with
          | none =>
            rw [hfound] at hdescription
            cases hdescription
          | some c =>
            rw [hfound] at hdescription
            cases hdescription
            obtain ⟨hc, hid⟩ := Host.find_some hfound
            exact hrun h' hI' ⟨c, hc, hnamed' c hc hid, hrunning⟩
        · cases hdescription
      · intro description z hz
        refine ⟨hz.1, some ⟨found.id, description⟩, rfl, ?_⟩
        intro c hc
        cases hc
        exact hz.2 description rfl
  · exact fun _ y hy => ⟨hy.1, none, rfl, fun c hc => hnone c hc y.2⟩

theorem wp_isContainerRunning_up (hplain : Plain up) (x : σ × Host)
    (hx : ¬ (x.2.Running up ∧ x.2.Running down)) :
    wp (amongStarts σ up down spared) (rely up down) (isContainerRunning up)
      (fun out y => ∃ running, out = .ok running ∧ (running = true → ¬ y.2.Running down)) x := by
  refine (wp_tryCatch ..).mpr (wp_seq (shielded_mono _ _ _) (getContainer up) _ x
    (wp_getContainer_up hplain stable_exclusive stable_not_running
      (fun h hh hup hdown => hh ⟨hup, hdown⟩) x hx) ?_ ?_)
  · intro container y hy
    obtain ⟨-, container, hcontainer, hfound⟩ := hy
    cases hcontainer
    cases container with
    | none => exact ⟨false, rfl, by simp⟩
    | some container => exact ⟨_, rfl, (hfound container rfl).2⟩
  · intro e y hy
    obtain ⟨-, container, hcontainer, -⟩ := hy
    cases hcontainer

theorem wp_start_guarded (hne : up ≠ down) (nameOrId : String) (id : ContainerId) (x : σ × Host)
    (hx : ¬ x.2.Running down ∧ Named up id x.2) :
    wp (amongStarts σ up down spared) (rely up down)
      (do let _ ← request (.startContainer nameOrId id); pure true)
      (fun _ y => ¬ y.2.Running down) x := by
  refine wp_request_seq (.startContainer nameOrId id) (Q := fun _ h => ¬ h.Running down)
    (fun _ => stable_not_running) _ ?_ (fun _ _ hy => hy) fun _ _ hy => hy
  intro h hk r h' hr
  obtain ⟨hdown, hnamed⟩ := (stable_not_running.and (stable_named id)) x.2 h hk hx
  have hid : ∀ c ∈ h.containers, c.id = id → c.name ≠ down := by
    intro c hc hcid hcn
    exact hne ((hnamed c hc hcid).symm.trans hcn)
  have hstart : Keeps up down h h' := by
    rcases faulty_effect hr with rfl | ⟨r', hd⟩
    · exact .refl up down h'
    · simp only [daemon] at hd
      split at hd
      · split at hd
        · rw [hd.2]
          exact .refl up down h
        · rw [hd.2]
          exact .start hid hdown
      · rw [hd.2]
        exact .refl up down h
  exact ⟨hstart, stable_not_running h h' hstart hdown⟩

theorem wp_create_guarded (data : ContainerData) (hdata : data.name = up) (hne : up ≠ down)
    (x : σ × Host) (hx : ¬ x.2.Running down) :
    wp (amongStarts σ up down spared) (rely up down)
      (do
        let id ← request (.createContainer data)
        let _ ← request (.startContainer data.name id)
        pure true) (fun _ y => ¬ y.2.Running down) x := by
  refine wp_request_seq (.createContainer data)
    (Q := fun r h => ¬ h.Running down ∧ ∀ id, r = .ok id → Named up id h) ?_ _ ?_
    (fun id v hv => wp_start_guarded hne _ id v ⟨hv.1, hv.2 id rfl⟩) fun _ _ hy => hy.1
  · exact fun r => stable_not_running.and fun h h' hk hh id hr => stable_named id h h' hk (hh id hr)
  · intro h hk r h' hr
    have hdown := stable_not_running x.2 h hk hx
    have hcreate : Keeps up down h h' := by
      rcases faulty_effect hr with rfl | ⟨r', ⟨id, hid, hname, -, rfl⟩ | ⟨-, -, rfl⟩⟩
      · exact .refl up down h'
      · exact .add hdata hne
      · exact .refl up down h'
    refine ⟨hcreate, stable_not_running h h' hcreate hdown, ?_⟩
    intro created hcreated
    rcases hr with (⟨id, hid, hname, rfl, rfl⟩ | ⟨-, rfl, rfl⟩) | ⟨-, ⟨e, rfl⟩, -⟩
    · cases hcreated
      intro c hc hcid
      rcases Host.mem_add.mp hc with hc | rfl
      · exact absurd hcid (hid c hc)
      · exact hdata
    · cases hcreated
    · cases hcreated

theorem wp_startContainer_up (hplain : Plain up) (hne : up ≠ down) (data : ContainerData)
    (hdata : data.name = up) (x : σ × Host) (hx : ¬ x.2.Running down) :
    wp (amongStarts σ up down spared) (rely up down) (startContainer data)
      (fun _ y => ¬ y.2.Running down) x := by
  subst hdata
  refine wp_try (P := fun _ y => ¬ y.2.Running down) (shielded_mono _ _ _) _ _ x ?_
    (fun _ _ hy => hy) fun _ _ hy => by exact hy
  refine wp_seq (shielded_mono _ _ _) (getContainer data.name) _ x
    (wp_getContainer_up hplain stable_not_running stable_not_running (fun _ h _ => h) x hx) ?_
    fun _ _ hy => hy.1
  intro container y hy
  obtain ⟨hdown, container, hcontainer, hfound⟩ := hy
  cases hcontainer
  cases container with
  | some container =>
    dsimp only
    split
    · exact wp_start_guarded hne _ container.id y ⟨hdown, (hfound container rfl).1⟩
    · exact hdown
  | none =>
    refine wp_seq (shielded_mono _ _ _) (getImage data.image) _ y
      (wp_harmless stable_not_running (quiet_getImage _).harmless y hdown) ?_ fun _ _ hz => hz
    intro image z hz
    have hcreate : ∀ (pulled : Bool) (u : σ × Host), ¬ u.2.Running down →
        wp (amongStarts σ data.name down spared) (rely data.name down)
          (if !pulled then pure false else do
            let id ← request (.createContainer data)
            let _ ← request (.startContainer data.name id)
            pure true) (fun _ v => ¬ v.2.Running down) u := by
      intro pulled u hu
      split
      · exact hu
      · exact wp_create_guarded data rfl hne u hu
    dsimp only
    split
    · exact hcreate true z hz
    · exact wp_seq (shielded_mono _ _ _) (pullImage data.image) _ z
        (wp_harmless stable_not_running (quiet_pullImage _).harmless z hz) hcreate fun _ _ hu => hu

end Specs
end Archipel.Docker
