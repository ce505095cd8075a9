import Archipel.Docker.Healthy

/-!
# The wrapper on a daemon that refuses to launch

The daemon works but may refuse to pull an image, to create a container or to
start it. A container that is not there runs after `startContainer` exactly when
nothing that its launch needs is refused.
-/

namespace Archipel.Docker
open Async

structure Refusal where
  pull : Bool
  create : Bool
  start : Bool
  deriving DecidableEq

/-- The calls that no refusal is about. -/
def Call.steady : Call → Prop
  | .listContainers _ => True
  | .inspectContainer _ _ => True
  | .createContainer _ => False
  | .startContainer _ _ => False
  | .stopContainer _ _ => True
  | .removeContainer _ _ => True
  | .inspectImage _ => True
  | .pull _ => False
  | .inspectVolume _ => True
  | .createVolume _ => True
  | .post _ _ => True
  | .setTimeout _ => True
  | .cryptoWaitReady => True

def Refusal.refuses (f : Refusal) : Call → Bool
  | .listContainers _ => false
  | .inspectContainer _ _ => false
  | .createContainer _ => f.create
  | .startContainer _ _ => f.start
  | .stopContainer _ _ => false
  | .removeContainer _ _ => false
  | .inspectImage _ => false
  | .pull _ => f.pull
  | .inspectVolume _ => false
  | .createVolume _ => false
  | .post _ _ => false
  | .setTimeout _ => false
  | .cryptoWaitReady => false

/-- A refused call fails and changes nothing. -/
def refusing (f : Refusal) : Env api String Host := fun c h r h' =>
  if f.refuses c then (∃ e, r = .error e) ∧ h' = h else daemon c h r h'

/-- The launch of a container from the image is not refused. -/
def Launchable (f : Refusal) (images : List String) (image : String) : Prop :=
  f.create = false ∧ f.start = false ∧ (f.pull = true → image ∈ images)

abbrev Refused {σ α : Type} (f : Refusal) (m : Async api σ String α)
    (Q : Except String α → σ × Host → Prop) (x : σ × Host) : Prop :=
  wp (demonic (refusing f)) free m Q x

theorem launchable_congr {f : Refusal} {images images' : List String} {image : String}
    (h : f.pull = true → images' = images) :
    Launchable f images' image ↔ Launchable f images image := by
  unfold Launchable
  cases hf : f.pull with
  | true => rw [h hf]
  | false => simp

theorem refusing_total (f : Refusal) : (refusing f).Total := by
  intro c h
  unfold refusing
  cases f.refuses c with
  | true => exact ⟨.error "refused", h, ⟨"refused", rfl⟩, rfl⟩
  | false => exact ⟨_, _, answer_daemon c h⟩

theorem refusing_steady {f : Refusal} {c : Call} (hc : c.steady) {h h' : Host}
    {r : Except String c.Ret} (hr : refusing f c h r h') : daemon c h r h' := by
  have hnot : f.refuses c = false := by
    cases c <;> first | rfl | exact hc.elim
  unfold refusing at hr
  rw [hnot] at hr
  exact hr

section Wrappers
variable {σ α : Type} {f : Refusal} {name : String}

theorem refused_steady {m : Async api σ String α} (hm : OnlyCalls Call.steady m)
    {Q : Except String α → σ × Host → Prop} {x : σ × Host} (h : Healthy m Q x) :
    Refused f m Q x :=
  wp_answers hm (fun _ hc _ _ _ hr => refusing_steady hc hr) h

theorem refused_request (c : Call) (g : c.Ret → Async api σ String α)
    {Q : Except String α → σ × Host → Prop} (x : σ × Host)
    (hrefused : f.refuses c = true → ∀ e, Q (.error e) x)
    (hok : f.refuses c = false → ∀ a h, daemon c x.2 (.ok a) h → Refused f (g a) Q (x.1, h))
    (herr : f.refuses c = false → ∀ e h, daemon c x.2 (.error e) h → Q (.error e) (x.1, h)) :
    Refused f (request c >>= g) Q x := by
  refine wp_seq (P := fun r y => y.1 = x.1 ∧ refusing f c x.2 r y.2) (demonic_mono _) (request c)
    g x ((wp_call ..).mpr fun r h hr => ⟨rfl, hr⟩) ?_ ?_
  · intro a y hy
    obtain ⟨s, h⟩ := y
    obtain ⟨rfl, hr⟩ := hy
    unfold refusing at hr
    cases hf : f.refuses c with
    | true =>
      rw [hf] at hr
      obtain ⟨⟨e, he⟩, -⟩ := hr
      cases he
    | false =>
      rw [hf] at hr
      exact hok hf a h hr
  · intro e y hy
    obtain ⟨s, h⟩ := y
    obtain ⟨rfl, hr⟩ := hy
    unfold refusing at hr
    cases hf : f.refuses c with
    | true =>
      rw [hf] at hr
      obtain ⟨-, rfl⟩ := hr
      exact hrefused hf e
    | false =>
      rw [hf] at hr
      exact herr hf e h hr

theorem refused_quiet {m : Async api σ String α} (hm : Quiet m) (x : σ × Host) :
    Refused f m (fun _ y => y.2.containers = x.2.containers) x := by
  refine wp_invariant (demonic_mono _) (fun y s hy => ⟨trivial, hy⟩) ?_ hm x rfl
  intro c hc y hy r h hr
  unfold refusing at hr
  cases hf : f.refuses c with
  | true =>
    rw [hf] at hr
    rw [hr.2]
    exact hy
  | false =>
    rw [hf] at hr
    have hcall := healthy_quiet (onlyCalls_request (σ := σ) c hc) y
    exact ((wp_call (demonic daemon) free c _ _).mp hcall r h hr).trans hy

/-- Only a pull brings an image. -/
theorem refused_images (m : Async api σ String α) (x : σ × Host) :
    Refused f m (fun _ y => f.pull = true → y.2.images = x.2.images) x := by
  refine wp_invariant (I := fun y : σ × Host => f.pull = true → y.2.images = x.2.images)
    (demonic_mono _) (fun y s hy => ⟨trivial, hy⟩) ?_ (onlyCalls_true m) x fun _ => rfl
  intro c _ y hy r h hr hpull
  have himages := hy hpull
  unfold refusing at hr
  cases hf : f.refuses c with
  | true =>
    rw [hf] at hr
    rw [hr.2]
    exact himages
  | false =>
    rw [hf] at hr
    cases c with
    | createContainer data =>
      rcases hr with ⟨id, hid, hname, -, rfl⟩ | ⟨-, -, rfl⟩
      · exact himages
      · exact himages
    | startContainer nameOrId id | stopContainer nameOrId id =>
      simp only [Bool.false_eq_true, if_false, daemon] at hr
      split at hr
      · split at hr
        · rw [hr.2]
          exact himages
        · rw [hr.2]
          exact himages
      · rw [hr.2]
        exact himages
    | removeContainer nameOrId id =>
      simp only [Bool.false_eq_true, if_false, daemon] at hr
      split at hr
      · rw [hr.2]
        exact himages
      · rw [hr.2]
        exact himages
    | pull image => exact absurd hpull (by simpa [Refusal.refuses] using hf)
    | inspectContainer nameOrId id | inspectImage image | inspectVolume volume =>
      simp only [Bool.false_eq_true, if_false, daemon] at hr
      rw [hr.1]
      exact himages
    | post method params =>
      simp only [Bool.false_eq_true, if_false, daemon] at hr
      rw [hr]
      exact himages
    | listContainers nameOrId | createVolume volume | setTimeout ms | cryptoWaitReady =>
      simp only [Bool.false_eq_true, if_false, daemon] at hr
      rw [hr.2]
      exact himages

theorem refused_getContainer (hplain : Plain name) (x : σ × Host) :
    Refused f (getContainer name) (fun out y => y = x ∧ match out with
      | .ok none => ¬ x.2.Present name
      | .ok (some container) => ∃ c ∈ x.2.containers, c.name = name ∧ c.id = container.id ∧
          c.description = container.description
      | .error _ => False) x :=
  refused_steady (onlyCalls_getContainer name trivial fun _ => trivial)
    (healthy_getContainer hplain x)

theorem refused_isContainerRunning (hplain : Plain name) (x : σ × Host) :
    Refused f (isContainerRunning name)
      (fun out y => y = x ∧ out = .ok (decide (x.2.Running name))) x :=
  refused_steady (onlyCalls_isContainerRunning name trivial fun _ => trivial)
    (healthy_isContainerRunning hplain x)

theorem refused_removeContainer (hplain : Plain name) (x : σ × Host) :
    Refused f (removeContainer name) (fun out y => ((∃ b, out = .ok b) ∧ y.1 = x.1 ∧
      ¬ y.2.Present name ∧ SameBut name x.2 y.2) ∧
        (f.pull = true → y.2.images = x.2.images)) x :=
  wp_and (refused_steady
    (onlyCalls_removeContainer name trivial (fun _ => trivial) fun _ => trivial)
    (healthy_removeContainer hplain x)) (refused_images _ x)

end Wrappers

/-! ### Launching a container -/

section Launch
variable {σ : Type} {f : Refusal}

theorem healthy_getImage (image : String) (x : σ × Host) :
    Healthy (getImage image) (fun out y => y = x ∧ out = .ok (decide (image ∈ x.2.images))) x := by
  refine (wp_tryCatch ..).mpr (healthy_request (.inspectImage image) _ x ?_ ?_)
  · intro _ h hr
    obtain ⟨rfl, hr⟩ := hr
    split at hr
    · next hmem => exact ⟨rfl, by rw [decide_eq_true hmem]⟩
    · cases hr
  · intro e h hr
    obtain ⟨rfl, hr⟩ := hr
    split at hr
    · cases hr
    · next hmem => exact ⟨rfl, by rw [decide_eq_false hmem]⟩

theorem refused_pullImage (image : String) (x : σ × Host) :
    Refused f (pullImage image)
      (fun out y => out = .ok (!f.pull) ∧ y.2.containers = x.2.containers) x := by
  refine (wp_tryCatch ..).mpr (refused_request (.pull image) _ x ?_ ?_ ?_)
  · intro hf e
    have hpull : f.pull = true := hf
    exact ⟨by rw [hpull]; rfl, rfl⟩
  · intro hf _ h hr
    have hpull : f.pull = false := hf
    obtain ⟨-, rfl⟩ := hr
    exact ⟨by rw [hpull]; rfl, rfl⟩
  · intro _ e h hr
    cases hr.1

/-- What is known of a host on which a container was to be launched. -/
def Settled (name : String) (launched : Prop) (h h' : Host) : Prop :=
  (h'.Running name ↔ launched) ∧ SameBut name h h'

theorem settled_absent {name : String} {launched : Prop} {h h' : Host} (hh : ¬ h.Present name)
    (hsame : h'.containers = h.containers) (hnot : ¬ launched) : Settled name launched h h' := by
  have hidle : ¬ h'.Running name :=
    fun hr => hh ((Host.present_congr hsame name).mp hr.present)
  exact ⟨⟨fun hr => absurd hr hidle, fun hl => absurd hl hnot⟩, .of_containers hsame⟩

theorem not_running_add {h : Host} {data : ContainerData} (hh : ¬ h.Present data.name)
    {id : ContainerId} (hid : ∀ c ∈ h.containers, c.id ≠ id)
    (hname : ∀ c ∈ h.containers, c.name ≠ data.name) :
    ¬ (h.add id data hid hname).Running data.name := by
  intro hr
  obtain ⟨c, hc, hn, hrun⟩ := hr
  rcases Host.mem_add.mp hc with hm | rfl
  · exact hh ⟨c, hm, hn⟩
  · cases hrun

theorem refused_create (data : ContainerData) (x : σ × Host) (hx : ¬ x.2.Present data.name) :
    Refused f (do
        let id ← request (.createContainer data)
        let _ ← request (.startContainer data.name id)
        pure true)
      (fun _ y => Settled data.name (f.create = false ∧ f.start = false) x.2 y.2) x := by
  refine refused_request (.createContainer data) _ x ?_ ?_ ?_
  · intro hf e
    have hcreate : f.create = true := hf
    exact settled_absent hx rfl (by simp [hcreate])
  · intro hf id h hr
    have hcreate : f.create = false := hf
    rcases hr with ⟨id', hid, hname, hid', rfl⟩ | ⟨hp, -⟩
    · cases hid'
      have hmem : (⟨id, data, false⟩ : Container) ∈ (x.2.add id data hid hname).containers :=
        Host.mem_add.mpr (.inr rfl)
      refine refused_request (.startContainer data.name id) _ _ ?_ ?_ ?_
      · intro hf' e
        have hstart : f.start = true := hf'
        have hidle := not_running_add hx hid hname
        have hadd : SameBut data.name x.2 (x.2.add id data hid hname) := SameBut.add
        exact ⟨⟨fun hrun => absurd hrun hidle, fun hl => by simp [hstart] at hl⟩, hadd⟩
      · intro hf' _ h' hr'
        have hstart : f.start = false := hf'
        simp only [daemon] at hr'
        split at hr'
        · split at hr'
          · cases hr'.1
          · rw [hr'.2]
            exact ⟨⟨fun _ => ⟨hcreate, hstart⟩, fun _ => running_setRunning hmem⟩,
              SameBut.add.trans (.setRunning hmem rfl true)⟩
        · cases hr'.1
      · intro _ e h' hr'
        simp only [daemon] at hr'
        split at hr'
        · next d hd =>
          rw [(x.2.add id data hid hname).eq_of_id (Host.find_some hd).1 hmem
            (Host.find_some hd).2] at hr'
          cases hr'.1
        · next hfind => exact absurd rfl (Host.find_none hfind _ hmem)
    · exact absurd hp hx
  · intro _ e h hr
    rcases hr with ⟨id', hid, hname, hid', -⟩ | ⟨hp, -⟩
    · cases hid'
    · exact absurd hp hx

theorem refused_startContainer (data : ContainerData) (hplain : Plain data.name) (x : σ × Host)
    (hx : ¬ x.2.Present data.name) :
    Refused f (startContainer data) (fun _ y =>
      Settled data.name (Launchable f x.2.images data.image) x.2 y.2) x := by
  refine wp_try (P := fun _ y => Settled data.name (Launchable f x.2.images data.image) x.2 y.2)
    (demonic_mono _) _ _ x ?_ (fun _ _ h => h) fun _ _ h => h
  refine wp_seq (demonic_mono _) (getContainer data.name) _ x (refused_getContainer hplain x) ?_
    fun _ _ h => h.2.elim
  intro container y hy
  obtain ⟨rfl, hc⟩ := hy
  cases container with
  | some container =>
    obtain ⟨c, hm, hn, -⟩ := hc
    exact absurd ⟨c, hm, hn⟩ hx
  | none =>
    have hcreate : ∀ z : σ × Host, z.2.containers = y.2.containers →
        (f.pull = true → data.image ∈ y.2.images) → Refused f (do
            let id ← request (.createContainer data)
            let _ ← request (.startContainer data.name id)
            pure true) (fun _ u =>
          Settled data.name (Launchable f y.2.images data.image) y.2 u.2) z := by
      intro z hz himage
      have habsent : ¬ z.2.Present data.name :=
        fun hp => hx ((Host.present_congr hz data.name).mp hp)
      refine wp_mono (demonic_mono _) _ ?_ z (refused_create data z habsent)
      intro out u hu
      refine ⟨hu.1.trans ?_, (SameBut.of_containers hz).trans hu.2⟩
      exact ⟨fun h => ⟨h.1, h.2, himage⟩, fun h => ⟨h.1, h.2.1⟩⟩
    refine wp_seq (demonic_mono _) (getImage data.image) _ y
      (refused_steady (onlyCalls_getImage _ trivial) (healthy_getImage data.image y)) ?_
      fun _ _ h => nomatch h.2
    intro image z hz
    obtain ⟨rfl, himage⟩ := hz
    cases himage
    by_cases hmem : data.image ∈ z.2.images
    · rw [decide_eq_true hmem]
      exact hcreate z rfl fun _ => hmem
    · rw [decide_eq_false hmem]
      refine wp_seq (demonic_mono _) (pullImage data.image) _ z (refused_pullImage _ z) ?_
        fun _ _ h => nomatch h.1
      intro pulled u hu
      obtain ⟨hpulled, hsame⟩ := hu
      cases hpulled
      cases hpull : f.pull with
      | true =>
        refine settled_absent hx hsame ?_
        exact fun hl => hmem (hl.2.2 hpull)
      | false => exact hcreate u hsame fun h => by rw [hpull] at h; cases h

end Launch
end Archipel.Docker
