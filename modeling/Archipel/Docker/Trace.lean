import Archipel.Async.Log
import Archipel.Docker.Healthy

/-!
# Traces of the wrapper

The calls that the methods of `docker.js` make on a working daemon, with the
host after each: at no moment is a container of another name created, changed or
removed, and a container that was not there is created and started.
-/

namespace Archipel.Docker
open Async

abbrev Trace := List (Event api String Host)

abbrev Traced := Host × Trace

/-- `Q` holds at the end of every logged run on a working daemon. -/
abbrev Recorded {σ α : Type} (m : Async api σ String α) (Q : Except String α → σ × Traced → Prop)
    (x : σ × Traced) : Prop := wp (demonic (logged daemon)) free m Q x

/-- The containers whose names are not in `S` are the same. -/
def Frame (S : String → Prop) (h h' : Host) : Prop :=
  ∀ c : Container, ¬ S c.name → (c ∈ h'.containers ↔ c ∈ h.containers)

/-- They are the same after every call. -/
structure Touches (S : String → Prop) (w w' : Traced) : Prop where
  frame : Frame S w.1 w'.1
  moments : Logs (fun event => Frame S w.1 event.after) w w'

section Frame
variable {S : String → Prop}

theorem frame_refl (h : Host) : Frame S h h := fun _ _ => Iff.rfl

theorem frame_trans {h h' h'' : Host} (h₁ : Frame S h h') (h₂ : Frame S h' h'') : Frame S h h'' :=
  fun c hc => (h₂ c hc).trans (h₁ c hc)

theorem frame_of_containers {h h' : Host} (hc : h'.containers = h.containers) : Frame S h h' :=
  fun _ _ => by rw [hc]

theorem SameBut.frame {name : String} {h h' : Host} (hs : SameBut name h h') (hS : S name) :
    Frame S h h' := by
  intro c hc
  have hne : c.name ≠ name := fun hn => hc (hn ▸ hS)
  exact hs c hne

theorem touches_refl (w : Traced) : Touches S w w := ⟨frame_refl w.1, logs_refl w⟩

theorem touches_trans {w w' w'' : Traced} (h : Touches S w w') (h' : Touches S w' w'') :
    Touches S w w'' := by
  refine ⟨frame_trans h.frame h'.frame, logs_trans h.moments ?_⟩
  exact logs_mono (fun event hevent => frame_trans h.frame hevent) h'.moments

theorem touches_call {c : Call} {r : Except String c.Ret} {w w' : Traced}
    (hr : logged daemon c w r w') (hframe : Frame S w.1 w'.1) : Touches S w w' :=
  ⟨hframe, logged_logs hr hframe⟩

end Frame

/-! ### Methods that touch only some containers -/

/-- Alone on a working daemon the method touches only containers with names in
`S`. -/
def Framed {σ α : Type} (S : String → Prop) (m : Async api σ String α) : Prop :=
  ∀ x : σ × Traced, Recorded m (fun _ y => Touches S x.2 y.2) x

section Framed
variable {σ α β : Type} {S : String → Prop} {name : String}

theorem framed_bind {m : Async api σ String α} {f : α → Async api σ String β} (hm : Framed S m)
    (hf : ∀ a, Framed S (f a)) : Framed S (m >>= f) := by
  intro x
  refine wp_seq (demonic_mono _) m f x (hm x) ?_ fun _ _ hy => hy
  intro a y hy
  refine wp_mono (demonic_mono _) (f a) ?_ y (hf a y)
  exact fun _ _ hz => touches_trans hy hz

theorem framed_tryCatch {m : Async api σ String α} {h : String → Async api σ String α}
    (hm : Framed S m) (hh : ∀ e, Framed S (h e)) : Framed S (tryCatch m h) := by
  intro x
  refine wp_try (demonic_mono _) m h x (hm x) (fun _ _ hy => hy) ?_
  intro e y hy
  refine wp_mono (demonic_mono _) (h e) ?_ y (hh e y)
  exact fun _ _ hz => touches_trans hy hz

theorem framed_pure (a : α) : Framed S (pure a : Async api σ String α) :=
  fun x => touches_refl x.2

theorem framed_get_bind {f : σ → Async api σ String α} (hf : ∀ s, Framed S (f s)) :
    Framed S (get >>= f) := fun x => hf x.1 x

theorem framed_modify (f : σ → σ) : Framed S (modify f : Async api σ String Unit) :=
  fun x => ⟨trivial, touches_refl x.2⟩

theorem framed_quiet {m : Async api σ String α} (hm : Quiet m) : Framed S m := by
  intro x
  refine wp_invariant (demonic_mono _) (fun y s hy => ⟨trivial, hy⟩) ?_ hm x (touches_refl x.2)
  intro c hc y hy r w hr
  have hcontainers := healthy_quiet (onlyCalls_request (σ := σ) c hc) (y.1, y.2.1)
  have hsame : w.1.containers = y.2.1.containers :=
    ((wp_call (demonic daemon) free c _ _).mp hcontainers) r w.1 hr.1
  exact touches_trans hy (touches_call hr (frame_of_containers hsame))

/-- What holds without the log holds with it. -/
theorem recorded {m : Async api σ String α} {Q : Except String α → σ × Host → Prop}
    {x : σ × Traced} (h : Healthy m Q (x.1, x.2.1)) :
    Recorded m (fun out y => Q out (y.1, y.2.1)) x := by
  refine wp_mono (demonic_mono _) m ?_ x (wp_logged (onlyCalls_true m) x.1 x.2 h)
  exact fun _ _ hy => hy.1

theorem recorded_quiet {m : Async api σ String α} (hm : Quiet m)
    {Q : Except String α → σ × Host → Prop} {x : σ × Traced} (h : Healthy m Q (x.1, x.2.1)) :
    Recorded m (fun out y => Q out (y.1, y.2.1) ∧
      Logs (fun event => Call.quiet event.call) x.2 y.2) x := wp_logged hm x.1 x.2 h

/-- What a lookup finds, and the host that it leaves as it was. -/
theorem recorded_getContainer (hplain : Plain name) (x : σ × Traced) :
    Recorded (getContainer name) (fun out y => y.1 = x.1 ∧ y.2.1 = x.2.1 ∧ Touches S x.2 y.2 ∧
      match out with
      | .ok none => ¬ x.2.1.Present name
      | .ok (some container) => ∃ c ∈ x.2.1.containers, c.name = name ∧ c.id = container.id ∧
          c.description = container.description
      | .error _ => False) x := by
  refine wp_mono (demonic_mono _) (getContainer name) ?_ x
    (wp_and (recorded (healthy_getContainer hplain (x.1, x.2.1)))
      (framed_quiet (S := S) (quiet_getContainer name) x))
  intro out y hy
  obtain ⟨⟨hsame, hfound⟩, htouches⟩ := hy
  obtain ⟨hfields, hhost⟩ := Prod.mk.inj hsame
  exact ⟨hfields, hhost, htouches, hfound⟩

/-- A call on a container of the host, looked up by its name. -/
theorem touches_found {w w' : Traced} {nameOrId : String} {c : Container} {r : Except String Unit}
    (hc : c ∈ w.1.containers) (hS : S c.name)
    (hr : logged daemon (.removeContainer nameOrId c.id) w r w' ∨
      logged daemon (.startContainer nameOrId c.id) w r w') : Touches S w w' := by
  rcases hr with hr | hr
  · refine touches_call hr ?_
    have heffect := hr.1
    simp only [daemon] at heffect
    split at heffect
    · rw [heffect.2]
      exact (SameBut.remove hc rfl).frame hS
    · rw [heffect.2]
      exact frame_refl w.1
  · refine touches_call hr ?_
    have heffect := hr.1
    simp only [daemon] at heffect
    split at heffect
    · split at heffect
      · rw [heffect.2]
        exact frame_refl w.1
      · rw [heffect.2]
        exact (SameBut.setRunning hc rfl true).frame hS
    · rw [heffect.2]
      exact frame_refl w.1

theorem framed_removeContainer (hplain : Plain name) (hS : S name) :
    Framed S (removeContainer name : Async api σ String Bool) := by
  intro x
  refine wp_try (P := fun _ y => Touches S x.2 y.2) (demonic_mono _) _ _ x ?_ (fun _ _ hy => hy)
    fun _ _ hy => hy
  refine wp_seq (demonic_mono _) (getContainer name) _ x
    (recorded_getContainer (S := S) hplain x) ?_ fun _ _ hy => hy.2.2.2.elim
  intro container y hy
  obtain ⟨-, hhost, htouches, hfound⟩ := hy
  cases container with
  | none => exact htouches
  | some container =>
    obtain ⟨c, hc, hname, hid, -⟩ := hfound
    refine wp_seq (P := fun _ z => Touches S x.2 z.2) (demonic_mono _)
      (request (.removeContainer name container.id)) _ y ?_ (fun _ _ hz => hz) fun _ _ hz => hz
    refine (wp_call ..).mpr fun r w hr => ?_
    rw [← hid] at hr
    exact touches_trans htouches
      (touches_found (by rw [hhost]; exact hc) (by rw [hname]; exact hS) (.inl hr))

/-- Creating a container and starting it by the id it got. -/
theorem framed_create (data : ContainerData) (hS : S data.name) :
    Framed S (do
      let id ← request (.createContainer data)
      let _ ← request (.startContainer data.name id)
      pure true : Async api σ String Bool) := by
  intro z
  refine wp_seq (P := fun r u => Touches S z.2 u.2 ∧ ∀ id, r = .ok id →
      ∃ c ∈ u.2.1.containers, c.name = data.name ∧ c.id = id) (demonic_mono _)
    (request (.createContainer data)) _ z ?_ ?_ fun _ _ hu => hu.1
  · refine (wp_call ..).mpr fun r w hr => ?_
    rcases hr.1 with ⟨id, hid, hname, hok, hadd⟩ | ⟨-, herr, hsame⟩
    · refine ⟨touches_call hr ?_, ?_⟩
      · rw [hadd]
        exact SameBut.add.frame hS
      · intro id' hid'
        rw [hok] at hid'
        rw [hadd]
        exact ⟨⟨id, data, false⟩, Host.mem_add.mpr (.inr rfl), rfl, Except.ok.inj hid'⟩
    · refine ⟨touches_call hr ?_, ?_⟩
      · rw [hsame]
        exact frame_refl z.2.1
      · intro id' hid'
        rw [herr] at hid'
        cases hid'
  · intro id u hu
    obtain ⟨htouched, hnew⟩ := hu
    obtain ⟨c, hc, hname, hid⟩ := hnew id rfl
    refine wp_seq (P := fun _ v => Touches S z.2 v.2) (demonic_mono _)
      (request (.startContainer data.name id)) _ u ?_ (fun _ _ hv => hv) fun _ _ hv => hv
    refine (wp_call ..).mpr fun r w hr => ?_
    rw [← hid] at hr
    exact touches_trans htouched (touches_found hc (by rw [hname]; exact hS) (.inr hr))

theorem framed_startContainer (data : ContainerData) (hplain : Plain data.name)
    (hS : S data.name) : Framed S (startContainer data : Async api σ String Bool) := by
  intro x
  refine wp_try (P := fun _ y => Touches S x.2 y.2) (demonic_mono _) _ _ x ?_ (fun _ _ hy => hy)
    fun _ _ hy => hy
  refine wp_seq (demonic_mono _) (getContainer data.name) _ x
    (recorded_getContainer (S := S) hplain x) ?_ fun _ _ hy => hy.2.2.2.elim
  intro container y hy
  obtain ⟨-, hhost, htouches, hfound⟩ := hy
  cases container with
  | some container =>
    obtain ⟨c, hc, hname, hid, -⟩ := hfound
    dsimp only
    split
    · refine wp_seq (P := fun _ z => Touches S x.2 z.2) (demonic_mono _)
        (request (.startContainer data.name container.id)) _ y ?_ (fun _ _ hz => hz)
        fun _ _ hz => hz
      refine (wp_call ..).mpr fun r w hr => ?_
      rw [← hid] at hr
      exact touches_trans htouches
        (touches_found (by rw [hhost]; exact hc) (by rw [hname]; exact hS) (.inr hr))
    · exact htouches
  | none =>
    have hpulled : ∀ pulled : Bool, Framed S (if !pulled then pure false
        else do
          let id ← request (.createContainer data)
          let _ ← request (.startContainer data.name id)
          pure true : Async api σ String Bool) := by
      intro pulled
      split
      · exact framed_pure false
      · exact framed_create data hS
    have hrest : Framed S (do
        let image ← getImage data.image
        let pulled ← if image then pure true else pullImage data.image
        if !pulled then pure false
        else do
          let id ← request (.createContainer data)
          let _ ← request (.startContainer data.name id)
          pure true : Async api σ String Bool) := by
      refine framed_bind (framed_quiet (quiet_getImage data.image)) fun image => ?_
      dsimp only
      split
      · exact hpulled true
      · exact framed_bind (framed_quiet (quiet_pullImage data.image)) hpulled
    refine wp_mono (demonic_mono _) _ ?_ y (hrest y)
    exact fun _ _ hz => touches_trans htouches hz

end Framed

/-! ### Containers that are created and started -/

/-- A container of this name was created and then started. -/
def Launched (name : String) (made : Trace) : Prop :=
  ∃ data id h h', data.name = name ∧ List.Sublist
    [⟨.createContainer data, .ok id, h⟩, ⟨.startContainer name id, .ok (), h'⟩] made

def Launches (name : String) (w w' : Traced) : Prop :=
  ∃ made, w'.2 = w.2 ++ made ∧ Launched name made

section Launches
variable {name : String} {w w' w'' : Traced} {P : Event api String Host → Prop}

theorem logs_launches (h : Logs P w w') (h' : Launches name w' w'') : Launches name w w'' := by
  obtain ⟨made, hmade, -⟩ := h
  obtain ⟨made', hmade', data, id, h₁, h₂, hname, hsub⟩ := h'
  refine ⟨made ++ made', by rw [hmade', hmade, List.append_assoc], data, id, h₁, h₂, hname, ?_⟩
  exact hsub.trans (List.sublist_append_right made made')

theorem launches_logs (h : Launches name w w') (h' : Logs P w' w'') : Launches name w w'' := by
  obtain ⟨made, hmade, data, id, h₁, h₂, hname, hsub⟩ := h
  obtain ⟨made', hmade', -⟩ := h'
  refine ⟨made ++ made', by rw [hmade', hmade, List.append_assoc], data, id, h₁, h₂, hname, ?_⟩
  exact hsub.trans (List.sublist_append_left made made')

theorem not_launched {made : Trace} (h : ∀ event ∈ made, Call.quiet event.call) :
    ¬ Launched name made := by
  intro hlaunched
  obtain ⟨data, id, h₁, h₂, -, hsub⟩ := hlaunched
  exact h _ (hsub.subset List.mem_cons_self)

end Launches

section Create
variable {σ α : Type}

theorem recorded_create (data : ContainerData) (x : σ × Traced)
    (hx : ¬ x.2.1.Present data.name) :
    Recorded (do
        let id ← request (.createContainer data)
        let _ ← request (.startContainer data.name id)
        pure true)
      (fun out y => out = .ok true ∧ Launches data.name x.2 y.2) x := by
  refine wp_seq (P := fun r u => ∃ id, r = .ok id ∧ u.2.1.find id = some ⟨id, data, false⟩ ∧
      u.2.2 = x.2.2 ++ [⟨.createContainer data, .ok id, u.2.1⟩]) (demonic_mono _)
    (request (.createContainer data)) _ x ?_ ?_ fun _ _ hu => ?_
  · refine (wp_call ..).mpr fun r w hr => ?_
    obtain ⟨heffect, hlog⟩ := hr
    rcases heffect with ⟨id, hid, hname, hok, hadd⟩ | ⟨hpresent, -⟩
    · refine ⟨id, hok, ?_, by rw [hlog, hok]⟩
      have hmem : (⟨id, data, false⟩ : Container) ∈ w.1.containers := by
        rw [hadd]
        exact Host.mem_add.mpr (.inr rfl)
      cases hfind : w.1.find id with
      | none => exact absurd rfl (Host.find_none hfind _ hmem)
      | some c =>
        obtain ⟨hc, hcid⟩ := Host.find_some hfind
        rw [w.1.eq_of_id hc hmem hcid]
    · exact absurd hpresent hx
  · intro id u hu
    obtain ⟨id', hid', hfind, hlog⟩ := hu
    cases hid'
    refine wp_seq (P := fun r v => r = .ok () ∧ Launches data.name x.2 v.2) (demonic_mono _)
      (request (.startContainer data.name id)) _ u ?_ ?_ fun _ _ hv => nomatch hv.1
    · refine (wp_call ..).mpr fun r w hr => ?_
      obtain ⟨heffect, hlog'⟩ := hr
      simp only [daemon] at heffect
      rw [hfind] at heffect
      have hok : r = .ok () := heffect.1
      refine ⟨hok, [⟨.createContainer data, .ok id, u.2.1⟩,
        ⟨.startContainer data.name id, .ok (), w.1⟩], ?_, data, id, u.2.1, w.1, rfl,
        List.Sublist.refl _⟩
      rw [hlog', hlog, hok, List.append_assoc]
      rfl
    · exact fun _ _ hv => ⟨rfl, hv.2⟩
  · obtain ⟨id, hid, -⟩ := hu
    cases hid

theorem recorded_startContainer (data : ContainerData) (hplain : Plain data.name) (x : σ × Traced)
    (hx : ¬ x.2.1.Present data.name) :
    Recorded (startContainer data)
      (fun out y => out = .ok true ∧ Launches data.name x.2 y.2) x := by
  refine wp_try (P := fun out y => out = .ok true ∧ Launches data.name x.2 y.2) (demonic_mono _)
    _ _ x ?_ (fun _ _ h => h) fun _ _ h => nomatch h.1
  refine wp_seq (demonic_mono _) (getContainer data.name) _ x
    (recorded_getContainer (S := fun _ => True) hplain x) ?_ fun _ _ h => h.2.2.2.elim
  intro container y hy
  obtain ⟨-, hhost, htouches, hfound⟩ := hy
  cases container with
  | some container =>
    obtain ⟨c, hc, hname, -⟩ := hfound
    exact absurd ⟨c, hc, hname⟩ hx
  | none =>
    have hcreate : ∀ z : σ × Traced, z.2.1.containers = x.2.1.containers →
        Logs (fun _ => True) x.2 z.2 → Recorded (do
            let id ← request (.createContainer data)
            let _ ← request (.startContainer data.name id)
            pure true)
          (fun out u => out = .ok true ∧ Launches data.name x.2 u.2) z := by
      intro z hz hlogs
      have habsent : ¬ z.2.1.Present data.name :=
        fun hp => hx ((Host.present_congr hz data.name).mp hp)
      refine wp_mono (demonic_mono _) _ ?_ z (recorded_create data z habsent)
      exact fun out u hu => ⟨hu.1, logs_launches hlogs hu.2⟩
    have hy : y.2.1.containers = x.2.1.containers := congrArg Host.containers hhost
    have hlogs : Logs (fun _ => True) x.2 y.2 := logs_mono (fun _ _ => trivial) htouches.moments
    refine wp_seq (demonic_mono _) (getImage data.image) _ y
      (recorded_quiet (quiet_getImage data.image) (healthy_calm (quiet_getImage data.image)
        (returns_tryCatch _ fun _ => trivial) (y.1, y.2.1))) ?_ fun _ _ h => nomatch h.1.1
    intro image z hz
    obtain ⟨⟨-, hsame⟩, hlogs'⟩ := hz
    have hgrown := logs_trans hlogs (logs_mono (fun _ _ => trivial) hlogs')
    dsimp only
    split
    · exact hcreate z (hsame.trans hy) hgrown
    · refine wp_seq (demonic_mono _) (pullImage data.image) _ z
        (recorded_quiet (quiet_pullImage data.image) (healthy_pullImage data.image (z.1, z.2.1)))
        ?_ fun _ _ h => nomatch h.1.1
      intro pulled u hu
      obtain ⟨⟨hpulled, hsame'⟩, hlogs''⟩ := hu
      cases hpulled
      exact hcreate u (hsame'.trans (hsame.trans hy))
        (logs_trans hgrown (logs_mono (fun _ _ => trivial) hlogs''))

end Create

end Archipel.Docker
