import Archipel.Docker.Client

/-!
# The wrapper on a working daemon

What the methods of `docker.js` answer and do when they run alone and every call
succeeds.
-/

namespace Archipel.Docker
open Async

/-- `Q` holds at the end of every run of the function alone on a working daemon. -/
abbrev Healthy {σ α : Type} (m : Async api σ String α) (Q : Except String α → σ × Host → Prop)
    (x : σ × Host) : Prop := wp (demonic daemon) free m Q x

def SameBut (name : String) (h h' : Host) : Prop :=
  ∀ c : Container, c.name ≠ name → (c ∈ h'.containers ↔ c ∈ h.containers)

namespace SameBut
variable {name other : String} {h h' h'' : Host}

theorem refl (name : String) (h : Host) : SameBut name h h := fun _ _ => Iff.rfl

theorem trans (h₁ : SameBut name h h') (h₂ : SameBut name h' h'') : SameBut name h h'' :=
  fun c hc => (h₂ c hc).trans (h₁ c hc)

theorem of_containers (hc : h'.containers = h.containers) : SameBut name h h' :=
  fun _ _ => by rw [hc]

theorem running (hs : SameBut name h h') (hne : other ≠ name) :
    h'.Running other ↔ h.Running other := by
  constructor
  · rintro ⟨c, hc, hn, hr⟩
    exact ⟨c, (hs c (hn ▸ hne)).mp hc, hn, hr⟩
  · rintro ⟨c, hc, hn, hr⟩
    exact ⟨c, (hs c (hn ▸ hne)).mpr hc, hn, hr⟩

theorem present (hs : SameBut name h h') (hne : other ≠ name) :
    h'.Present other ↔ h.Present other := by
  constructor
  · rintro ⟨c, hc, hn⟩
    exact ⟨c, (hs c (hn ▸ hne)).mp hc, hn⟩
  · rintro ⟨c, hc, hn⟩
    exact ⟨c, (hs c (hn ▸ hne)).mpr hc, hn⟩

theorem remove {c : Container} (hc : c ∈ h.containers) (hn : c.name = name) :
    SameBut name h (h.remove c.id) := by
  intro d hd
  rw [Host.mem_remove]
  constructor
  · exact fun hm => hm.1
  · refine fun hm => ⟨hm, fun hid => ?_⟩
    rw [h.eq_of_id hm hc hid] at hd
    exact hd hn

theorem setRunning {c : Container} (hc : c ∈ h.containers) (hn : c.name = name) (running : Bool) :
    SameBut name h (h.setRunning running c.id) := by
  intro d hd
  rw [Host.mem_setRunning]
  constructor
  · rintro ⟨e, he, rfl⟩
    have hne : e.id ≠ c.id := fun hid => hd (by
      rw [Container.setRunning_name, h.eq_of_id he hc hid, hn])
    rw [Container.setRunning, if_neg hne]
    exact he
  · refine fun hm => ⟨d, hm, ?_⟩
    have hne : d.id ≠ c.id := fun hid => hd (by rw [h.eq_of_id hm hc hid, hn])
    rw [Container.setRunning, if_neg hne]

theorem add {data : ContainerData} {id : ContainerId} {hid : ∀ c ∈ h.containers, c.id ≠ id}
    {hname : ∀ c ∈ h.containers, c.name ≠ data.name} :
    SameBut data.name h (h.add id data hid hname) := by
  intro d hd
  rw [Host.mem_add]
  constructor
  · rintro (hm | rfl)
    · exact hm
    · exact absurd rfl hd
  · exact .inl

end SameBut

theorem running_setRunning {h : Host} {c : Container} (hc : c ∈ h.containers) :
    (h.setRunning true c.id).Running c.name := by
  refine ⟨c.setRunning true c.id, Host.mem_setRunning.mpr ⟨c, hc, rfl⟩, by simp, ?_⟩
  rw [Container.setRunning, if_pos rfl]

theorem not_present_remove {h : Host} {c : Container} (hc : c ∈ h.containers) :
    ¬ (h.remove c.id).Present c.name := by
  rintro ⟨d, hd, hn⟩
  obtain ⟨hm, hid⟩ := Host.mem_remove.mp hd
  exact hid (congrArg Container.id (h.eq_of_name hm hc hn))

section Wrappers
variable {σ α : Type} {name : String}

theorem healthy_request (c : Call) (f : c.Ret → Async api σ String α)
    {Q : Except String α → σ × Host → Prop} (x : σ × Host)
    (hok : ∀ a h, daemon c x.2 (.ok a) h → Healthy (f a) Q (x.1, h))
    (herr : ∀ e h, daemon c x.2 (.error e) h → Q (.error e) (x.1, h)) :
    Healthy (request c >>= f) Q x := by
  refine wp_seq (P := fun r y => y.1 = x.1 ∧ daemon c x.2 r y.2) (demonic_mono daemon) (request c)
    f x ((wp_call (demonic daemon) free c _ x).mpr fun r h hr => ⟨rfl, hr⟩) ?_ ?_
  · rintro a ⟨s, h⟩ ⟨rfl, hr⟩
    exact hok a h hr
  · rintro e ⟨s, h⟩ ⟨rfl, hr⟩
    exact herr e h hr

theorem healthy_quiet {m : Async api σ String α} (hm : Quiet m) (x : σ × Host) :
    Healthy m (fun _ y => y.2.containers = x.2.containers) x := by
  refine wp_invariant (demonic_mono daemon) (fun y s hy => ⟨trivial, hy⟩) ?_ hm x rfl
  intro c hc y hy r h hr
  cases c with
  | createContainer data | startContainer nameOrId id | stopContainer nameOrId id
  | removeContainer nameOrId id => cases hc
  | inspectContainer nameOrId id | inspectImage name | inspectVolume name =>
    simp only [daemon] at hr
    rw [hr.1]
    exact hy
  | post method params =>
    simp only [daemon] at hr
    rw [hr]
    exact hy
  | listContainers nameOrId | pull name | createVolume name | setTimeout ms | cryptoWaitReady =>
    simp only [daemon] at hr
    rw [hr.2]
    exact hy

theorem healthy_calm {m : Async api σ String α} (hm : Quiet m) (hr : Returns m) (x : σ × Host) :
    Healthy m (fun out y => (∃ a, out = .ok a) ∧ y.2.containers = x.2.containers) x :=
  wp_returns (demonic_mono daemon) hr x (healthy_quiet hm x)

theorem healthy_pullImage (image : String) (x : σ × Host) :
    Healthy (pullImage image)
      (fun out y => out = .ok true ∧ y.2.containers = x.2.containers) x := by
  refine (wp_tryCatch ..).mpr (healthy_request (.pull image) _ x ?_ ?_)
  · rintro _ h ⟨-, rfl⟩
    exact ⟨rfl, rfl⟩
  · rintro e h ⟨hr, -⟩
    cases hr

theorem healthy_getContainer (hplain : Plain name) (x : σ × Host) :
    Healthy (getContainer name) (fun out y => y = x ∧ match out with
      | .ok none => ¬ x.2.Present name
      | .ok (some container) => ∃ c ∈ x.2.containers, c.name = name ∧ c.id = container.id ∧
          c.description = container.description
      | .error _ => False) x := by
  refine (wp_tryCatch ..).mpr (healthy_request (.listContainers name) _ x ?_ ?_)
  · rintro containers h ⟨hcontainers, rfl⟩
    cases hcontainers
    cases hf : (x.2.containers.map Container.summary).find? fun c => Summary.matches c name with
    | none => exact ⟨rfl, fun ⟨c, hc, hn⟩ => find_matches_none x.2 hplain hf c hc hn⟩
    | some found =>
      obtain ⟨c, hc, hid, hn⟩ := find_matches_some x.2 hplain hf
      have hfound : x.2.find found.id = some c := by
        cases hfd : x.2.find found.id with
        | none => exact absurd hid (Host.find_none hfd c hc)
        | some d =>
          obtain ⟨hd, hdid⟩ := Host.find_some hfd
          rw [x.2.eq_of_id hd hc (hdid.trans hid.symm)]
      refine healthy_request (.inspectContainer name found.id) _ x ?_ ?_
      · rintro description h ⟨rfl, hd⟩
        rw [hfound] at hd
        cases hd
        exact ⟨rfl, c, hc, hn, hid, rfl⟩
      · rintro e h ⟨rfl, hd⟩
        rw [hfound] at hd
        cases hd
  · rintro e h ⟨he, -⟩
    cases he

theorem healthy_isContainerRunning (hplain : Plain name) (x : σ × Host) :
    Healthy (isContainerRunning name)
      (fun out y => y = x ∧ out = .ok (decide (x.2.Running name))) x := by
  refine (wp_tryCatch ..).mpr (wp_seq (demonic_mono daemon) (getContainer name) _ x
    (healthy_getContainer hplain x) ?_ fun _ _ h => h.2.elim)
  rintro container y ⟨rfl, hc⟩
  cases container with
  | none =>
    refine ⟨rfl, ?_⟩
    rw [decide_eq_false fun hr => hc hr.present]
  | some container =>
    obtain ⟨c, hm, hn, -, hd⟩ := hc
    refine ⟨rfl, congrArg Except.ok ?_⟩
    have hrun : container.description.running = c.running := (congrArg Description.running hd).symm
    rw [hrun, eq_comm]
    cases hr : c.running with
    | true => exact decide_eq_true ⟨c, hm, hn, hr⟩
    | false =>
      refine decide_eq_false ?_
      rintro ⟨d, hdm, hdn, hdr⟩
      rw [y.2.eq_of_name hdm hm (hdn.trans hn.symm), hr] at hdr
      cases hdr

theorem healthy_removeContainer (hplain : Plain name) (x : σ × Host) :
    Healthy (removeContainer name) (fun out y => (∃ b, out = .ok b) ∧ y.1 = x.1 ∧
      ¬ y.2.Present name ∧ SameBut name x.2 y.2) x := by
  refine (wp_tryCatch ..).mpr (wp_seq (demonic_mono daemon) (getContainer name) _ x
    (healthy_getContainer hplain x) ?_ fun _ _ h => h.2.elim)
  rintro container y ⟨rfl, hc⟩
  cases container with
  | none => exact ⟨⟨false, rfl⟩, rfl, hc, .refl name y.2⟩
  | some container =>
    obtain ⟨c, hm, rfl, hid, -⟩ := hc
    refine healthy_request (.removeContainer c.name container.id) _ y ?_ ?_
    · intro _ h hr
      simp only [daemon] at hr
      rw [← hid] at hr
      split at hr
      · rw [hr.2]
        exact ⟨⟨true, rfl⟩, rfl, not_present_remove hm, .remove hm rfl⟩
      · cases hr.1
    · intro e h hr
      simp only [daemon] at hr
      split at hr
      · cases hr.1
      · next hf => exact absurd hid (Host.find_none hf c hm)

theorem healthy_start (nameOrId : String) (c : Container)
    {P : Except String Bool → σ × Host → Prop} (x : σ × Host) (hc : c ∈ x.2.containers)
    (hrun : c.running = false) (hP : P (.ok true) (x.1, x.2.setRunning true c.id)) :
    Healthy (do let _ ← request (.startContainer nameOrId c.id); pure true) P x := by
  refine healthy_request (.startContainer nameOrId c.id) _ x ?_ ?_
  · intro _ h hr
    simp only [daemon] at hr
    split at hr
    · split at hr
      · cases hr.1
      · rw [hr.2]
        exact hP
    · cases hr.1
  · intro e h hr
    simp only [daemon] at hr
    split at hr
    · next d hd =>
      rw [x.2.eq_of_id (Host.find_some hd).1 hc (Host.find_some hd).2, hrun] at hr
      cases hr.1
    · next hf => exact absurd rfl (Host.find_none hf c hc)

theorem healthy_create (data : ContainerData) (x : σ × Host) (hx : ¬ x.2.Present data.name) :
    Healthy (do
        let id ← request (.createContainer data)
        let _ ← request (.startContainer data.name id)
        pure true)
      (fun out y => out = .ok true ∧ y.2.Running data.name ∧ SameBut data.name x.2 y.2) x := by
  refine healthy_request (.createContainer data) _ x ?_ ?_
  · rintro id h (⟨id', hid, hname, hr, rfl⟩ | ⟨hp, -⟩)
    · cases hr
      have hmem : (⟨id, data, false⟩ : Container) ∈ (x.2.add id data hid hname).containers :=
        Host.mem_add.mpr (.inr rfl)
      exact healthy_start data.name ⟨id, data, false⟩ (x.1, x.2.add id data hid hname) hmem rfl
        ⟨rfl, running_setRunning hmem, SameBut.add.trans (.setRunning hmem rfl true)⟩
    · exact absurd hp hx
  · rintro e h (⟨id', hid, hname, hr, -⟩ | ⟨hp, -⟩)
    · cases hr
    · exact absurd hp hx

theorem healthy_startContainer (data : ContainerData) (hplain : Plain data.name) (x : σ × Host)
    (hx : ¬ x.2.Running data.name) :
    Healthy (startContainer data) (fun out y => out = .ok true ∧
      y.2.Running data.name ∧ SameBut data.name x.2 y.2) x := by
  refine wp_try (P := fun out y => out = .ok true ∧
      y.2.Running data.name ∧ SameBut data.name x.2 y.2) (demonic_mono daemon) _ _ x ?_
    (fun _ _ h => h) fun _ _ h => nomatch h.1
  refine wp_seq (demonic_mono daemon) (getContainer data.name) _ x
    (healthy_getContainer hplain x) ?_ fun _ _ h => h.2.elim
  rintro container y ⟨rfl, hc⟩
  cases container with
  | some container =>
    obtain ⟨c, hm, hn, hid, hd⟩ := hc
    have hrun : c.running = false := by
      cases hr : c.running with
      | false => rfl
      | true => exact absurd ⟨c, hm, hn, hr⟩ hx
    have hdesc : container.description.running = false :=
      (congrArg Description.running hd).symm.trans hrun
    dsimp only
    rw [hdesc, ← hid]
    exact healthy_start data.name c y hm hrun
      ⟨rfl, hn ▸ running_setRunning hm, .setRunning hm hn true⟩
  | none =>
    have hcreate : ∀ z : σ × Host, z.2.containers = y.2.containers →
        Healthy (do
            let id ← request (.createContainer data)
            let _ ← request (.startContainer data.name id)
            pure true)
          (fun out u => out = .ok true ∧ u.2.Running data.name ∧
            SameBut data.name y.2 u.2) z := by
      intro z hz
      have habsent : ¬ z.2.Present data.name := by
        rintro ⟨c, hm, hn⟩
        exact hc ⟨c, hz ▸ hm, hn⟩
      refine wp_mono (demonic_mono daemon) _ ?_ z (healthy_create data z habsent)
      exact fun out u h => ⟨h.1, h.2.1, (SameBut.of_containers hz).trans h.2.2⟩
    refine wp_seq (demonic_mono daemon) (getImage data.image) _ y
      (healthy_calm (quiet_getImage data.image) (returns_tryCatch _ fun _ => trivial) y) ?_
      fun _ _ h => nomatch h.1
    rintro image z ⟨-, hz⟩
    dsimp only
    split
    · exact hcreate z hz
    · refine wp_seq (demonic_mono daemon) (pullImage data.image) _ z (healthy_pullImage _ z) ?_
        fun _ _ h => nomatch h.1
      rintro pulled u ⟨hpulled, hu⟩
      cases hpulled
      exact hcreate u (hu.trans hz)

end Wrappers
end Archipel.Docker
