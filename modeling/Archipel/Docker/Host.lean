import Mathlib.Data.List.Nodup
import Archipel.Async.Shared

/-!
# The docker host

What the orchestrator sees of a docker daemon: the calls of its API that the
source makes, the containers of the host, and the answer of a daemon that works.
A host carries the two facts the daemon guarantees, that no two containers share
an identifier or a name.
-/

namespace Archipel.Docker

/-- Docker identifies a container by a text of hexadecimal digits. -/
structure ContainerId where
  text : String
  hex : ∀ c ∈ text.toList, c ∈ "0123456789abcdef".toList
  deriving DecidableEq

structure MountConfig where
  target : String
  source : String
  type : String
  readOnly : Bool
  deriving DecidableEq, Repr

structure ContainerData where
  name : String
  image : String
  cmd : List String
  mounts : List MountConfig
  networkMode : Option String
  deriving DecidableEq, Repr

structure Container where
  id : ContainerId
  data : ContainerData
  running : Bool
  deriving DecidableEq

def Container.name (c : Container) : String := c.data.name

/-- A mount as `inspect` shows it: only volumes have a name. -/
structure Mount where
  name : Option String
  deriving DecidableEq, Repr

def MountConfig.mount (m : MountConfig) : Mount :=
  ⟨if m.type = "volume" then some m.source else none⟩

structure Description where
  running : Bool
  mounts : List Mount
  deriving DecidableEq, Repr

/-- One entry of the container list; names are listed with a leading slash. -/
structure Summary where
  id : ContainerId
  names : List String
  deriving DecidableEq

def Container.description (c : Container) : Description :=
  ⟨c.running, c.data.mounts.map MountConfig.mount⟩

def Container.summary (c : Container) : Summary := ⟨c.id, ["/" ++ c.name]⟩

structure Host where
  containers : List Container
  images : List String
  volumes : List String
  idsNodup : (containers.map Container.id).Nodup
  namesNodup : (containers.map Container.name).Nodup

def Host.empty : Host := ⟨[], [], [], List.nodup_nil, List.nodup_nil⟩

def Host.Running (h : Host) (name : String) : Prop :=
  ∃ c ∈ h.containers, c.name = name ∧ c.running = true

def Host.Present (h : Host) (name : String) : Prop := ∃ c ∈ h.containers, c.name = name

instance (h : Host) (name : String) : Decidable (h.Running name) :=
  inferInstanceAs (Decidable (∃ c ∈ h.containers, c.name = name ∧ c.running = true))

instance (h : Host) (name : String) : Decidable (h.Present name) :=
  inferInstanceAs (Decidable (∃ c ∈ h.containers, c.name = name))

theorem Host.Running.present {h : Host} {name : String} (hr : h.Running name) :
    h.Present name := by
  obtain ⟨c, hc, hn, -⟩ := hr
  exact ⟨c, hc, hn⟩

theorem Host.running_congr {h h' : Host} (hc : h'.containers = h.containers) (name : String) :
    h'.Running name ↔ h.Running name := by
  unfold Host.Running
  rw [hc]

theorem Host.present_congr {h h' : Host} (hc : h'.containers = h.containers) (name : String) :
    h'.Present name ↔ h.Present name := by
  unfold Host.Present
  rw [hc]

theorem Host.eq_of_id (h : Host) {c d : Container} (hc : c ∈ h.containers)
    (hd : d ∈ h.containers) (hid : c.id = d.id) : c = d :=
  List.inj_on_of_nodup_map h.idsNodup hc hd hid

theorem Host.eq_of_name (h : Host) {c d : Container} (hc : c ∈ h.containers)
    (hd : d ∈ h.containers) (hname : c.name = d.name) : c = d :=
  List.inj_on_of_nodup_map h.namesNodup hc hd hname

/-! ### What the daemon does to the host -/

def Host.find (h : Host) (id : ContainerId) : Option Container :=
  h.containers.find? fun c => c.id == id

theorem Host.find_some {h : Host} {id : ContainerId} {c : Container} (hf : h.find id = some c) :
    c ∈ h.containers ∧ c.id = id := by
  have hc := List.find?_some hf
  exact ⟨List.mem_of_find?_eq_some hf, by simpa using hc⟩

theorem Host.find_none {h : Host} {id : ContainerId} (hf : h.find id = none) :
    ∀ c ∈ h.containers, c.id ≠ id := by
  intro c hc hid
  have hn := List.find?_eq_none.mp hf c hc
  simp [hid] at hn

def Host.remove (h : Host) (id : ContainerId) : Host :=
  { h with
    containers := h.containers.filter fun c => c.id ≠ id
    idsNodup := (List.filter_sublist.map _).nodup h.idsNodup
    namesNodup := (List.filter_sublist.map _).nodup h.namesNodup }

theorem Host.mem_remove {h : Host} {id : ContainerId} {c : Container} :
    c ∈ (h.remove id).containers ↔ c ∈ h.containers ∧ c.id ≠ id := by
  simp [Host.remove]

def Container.setRunning (running : Bool) (id : ContainerId) (c : Container) : Container :=
  if c.id = id then { c with running } else c

@[simp] theorem Container.setRunning_id (running : Bool) (id : ContainerId) (c : Container) :
    (c.setRunning running id).id = c.id := by
  unfold Container.setRunning
  split <;> rfl

@[simp] theorem Container.setRunning_name (running : Bool) (id : ContainerId) (c : Container) :
    (c.setRunning running id).name = c.name := by
  unfold Container.setRunning
  split <;> rfl

def Host.setRunning (h : Host) (running : Bool) (id : ContainerId) : Host :=
  { h with
    containers := h.containers.map fun c => c.setRunning running id
    idsNodup := by simpa [Function.comp_def] using h.idsNodup
    namesNodup := by simpa [Function.comp_def] using h.namesNodup }

theorem Host.mem_setRunning {h : Host} {running : Bool} {id : ContainerId} {c : Container} :
    c ∈ (h.setRunning running id).containers ↔
      ∃ d ∈ h.containers, d.setRunning running id = c := by
  simp [Host.setRunning]

def Host.add (h : Host) (id : ContainerId) (data : ContainerData)
    (hid : ∀ c ∈ h.containers, c.id ≠ id) (hname : ∀ c ∈ h.containers, c.name ≠ data.name) :
    Host :=
  { h with
    containers := h.containers ++ [⟨id, data, false⟩]
    idsNodup := by
      rw [List.map_append, List.nodup_append]
      refine ⟨h.idsNodup, by simp, ?_⟩
      intro a ha b hb
      obtain ⟨c, hc, rfl⟩ := List.mem_map.mp ha
      simp only [List.map_cons, List.map_nil, List.mem_singleton] at hb
      rw [hb]
      exact hid c hc
    namesNodup := by
      rw [List.map_append, List.nodup_append]
      refine ⟨h.namesNodup, by simp, ?_⟩
      intro a ha b hb
      obtain ⟨c, hc, rfl⟩ := List.mem_map.mp ha
      simp only [List.map_cons, List.map_nil, List.mem_singleton] at hb
      rw [hb]
      exact hname c hc }

theorem Host.mem_add {h : Host} {id : ContainerId} {data : ContainerData}
    {hid : ∀ c ∈ h.containers, c.id ≠ id} {hname : ∀ c ∈ h.containers, c.name ≠ data.name}
    {c : Container} :
    c ∈ (h.add id data hid hname).containers ↔ c ∈ h.containers ∨ c = ⟨id, data, false⟩ := by
  simp [Host.add]

/-! ### The API -/

/-- The calls to the docker daemon and to the RPC port of the service, and the
waits. The container calls carry, before the arguments the daemon sees, the name or
identifier that the wrapper of `docker.js` was asked for: it tells on whose
behalf a call was made, and the daemon does not look at it. -/
inductive Call where
  | listContainers (nameOrId : String)
  | inspectContainer (nameOrId : String) (id : ContainerId)
  | createContainer (data : ContainerData)
  | startContainer (nameOrId : String) (id : ContainerId)
  | stopContainer (nameOrId : String) (id : ContainerId)
  | removeContainer (nameOrId : String) (id : ContainerId)
  | inspectImage (name : String)
  | pull (name : String)
  | inspectVolume (name : String)
  | createVolume (name : String)
  | post (method : String) (params : List String)
  | setTimeout (ms : ℕ)
  | cryptoWaitReady

/-- `post` answers with the text of `data`, if the response has one. -/
def Call.Ret : Call → Type
  | .listContainers _ => List Summary
  | .inspectContainer _ _ => Description
  | .createContainer _ => ContainerId
  | .startContainer _ _ => Unit
  | .stopContainer _ _ => Unit
  | .removeContainer _ _ => Unit
  | .inspectImage _ => Unit
  | .pull _ => Unit
  | .inspectVolume _ => Unit
  | .createVolume _ => Unit
  | .post _ _ => Option String
  | .setTimeout _ => Unit
  | .cryptoWaitReady => Unit

abbrev api : Api := ⟨Call, Call.Ret⟩

/-- The daemon at work: the answer to a call and the host it leaves. Calls on a
missing container, a taken name or a running container are refused. -/
def daemon : Async.Env api String Host
  | .listContainers _, h, r, h' => r = .ok (h.containers.map Container.summary) ∧ h' = h
  | .inspectContainer _ id, h, r, h' => h' = h ∧ r = match h.find id with
    | some c => .ok c.description
    | none => .error "no such container"
  | .createContainer data, h, r, h' =>
    (∃ id hid hname, r = .ok id ∧ h' = h.add id data hid hname) ∨
    (h.Present data.name ∧ r = .error "name already in use" ∧ h' = h)
  | .startContainer _ id, h, r, h' => match h.find id with
    | some c => if c.running then r = .error "container already started" ∧ h' = h
      else r = .ok () ∧ h' = h.setRunning true id
    | none => r = .error "no such container" ∧ h' = h
  | .stopContainer _ id, h, r, h' => match h.find id with
    | some c => if c.running then r = .ok () ∧ h' = h.setRunning false id
      else r = .error "container already stopped" ∧ h' = h
    | none => r = .error "no such container" ∧ h' = h
  | .removeContainer _ id, h, r, h' => match h.find id with
    | some _ => r = .ok () ∧ h' = h.remove id
    | none => r = .error "no such container" ∧ h' = h
  | .inspectImage name, h, r, h' =>
    h' = h ∧ r = if name ∈ h.images then .ok () else .error "no such image"
  | .pull name, h, r, h' => r = .ok () ∧ h' = { h with images := name :: h.images }
  | .inspectVolume name, h, r, h' =>
    h' = h ∧ r = if name ∈ h.volumes then .ok () else .error "no such volume"
  | .createVolume name, h, r, h' => r = .ok () ∧ h' = { h with volumes := name :: h.volumes }
  | .post _ _, h, _, h' => h' = h
  | .setTimeout _, h, r, h' => r = .ok () ∧ h' = h
  | .cryptoWaitReady, h, r, h' => r = .ok () ∧ h' = h

/-! ### A daemon that computes -/

def freshLength (containers : List Container) : ℕ :=
  containers.foldr (fun c n => c.id.text.length + n + 1) 1

theorem length_lt_freshLength (containers : List Container) :
    ∀ c ∈ containers, c.id.text.length < freshLength containers := by
  induction containers with
  | nil => exact fun c hc => nomatch hc
  | cons d l ih =>
    intro c hc
    simp only [freshLength, List.foldr_cons] at ih ⊢
    rcases List.mem_cons.mp hc with rfl | hc
    · omega
    · have := ih c hc
      omega

def Host.freshId (h : Host) : ContainerId where
  text := String.ofList (List.replicate (freshLength h.containers) 'a')
  hex := by
    intro c hc
    rw [String.toList_ofList] at hc
    rw [List.eq_of_mem_replicate hc]
    decide

theorem Host.freshId_ne (h : Host) : ∀ c ∈ h.containers, c.id ≠ h.freshId := by
  intro c hc hid
  have hlt := length_lt_freshLength h.containers c hc
  rw [hid, Host.freshId, String.length_ofList, List.length_replicate] at hlt
  exact Nat.lt_irrefl _ hlt

/-- A working daemon: the answer `daemon` allows, with a fresh identifier for a
new container and an empty response of the RPC port. -/
def answer : Async.Answers api String Host
  | .listContainers _, h => (.ok (h.containers.map Container.summary), h)
  | .inspectContainer _ id, h =>
    (match h.find id with
      | some c => .ok c.description
      | none => .error "no such container", h)
  | .createContainer data, h =>
    if hname : h.Present data.name then (.error "name already in use", h)
    else (.ok h.freshId,
      h.add h.freshId data h.freshId_ne fun c hc hn => hname ⟨c, hc, hn⟩)
  | .startContainer _ id, h =>
    match h.find id with
    | some c => if c.running then (.error "container already started", h)
      else (.ok (), h.setRunning true id)
    | none => (.error "no such container", h)
  | .stopContainer _ id, h =>
    match h.find id with
    | some c => if c.running then (.ok (), h.setRunning false id)
      else (.error "container already stopped", h)
    | none => (.error "no such container", h)
  | .removeContainer _ id, h =>
    match h.find id with
    | some _ => (.ok (), h.remove id)
    | none => (.error "no such container", h)
  | .inspectImage name, h => (if name ∈ h.images then .ok () else .error "no such image", h)
  | .pull name, h => (.ok (), { h with images := name :: h.images })
  | .inspectVolume name, h => (if name ∈ h.volumes then .ok () else .error "no such volume", h)
  | .createVolume name, h => (.ok (), { h with volumes := name :: h.volumes })
  | .post _ _, h => (.ok none, h)
  | .setTimeout _, h => (.ok (), h)
  | .cryptoWaitReady, h => (.ok (), h)

theorem answer_daemon (c : Call) (h : Host) : daemon c h (answer c h).1 (answer c h).2 := by
  cases c with
  | createContainer data =>
    by_cases hname : h.Present data.name
    · have ha : answer (.createContainer data) h = (.error "name already in use", h) :=
        dif_pos hname
      rw [ha]
      exact .inr ⟨hname, rfl, rfl⟩
    · have hfree : ∀ c ∈ h.containers, c.name ≠ data.name := fun c hc hn => hname ⟨c, hc, hn⟩
      have ha : answer (.createContainer data) h =
        (.ok h.freshId, h.add h.freshId data h.freshId_ne hfree) := dif_neg hname
      rw [ha]
      exact .inl ⟨h.freshId, h.freshId_ne, hfree, rfl, rfl⟩
  | startContainer nameOrId id | stopContainer nameOrId id =>
    simp only [answer, daemon]
    cases hf : h.find id with
    | some c =>
      dsimp only
      split <;> exact ⟨rfl, rfl⟩
    | none => exact ⟨rfl, rfl⟩
  | removeContainer nameOrId id =>
    simp only [answer, daemon]
    cases hf : h.find id <;> exact ⟨rfl, rfl⟩
  | post method params => rfl
  | listContainers nameOrId | inspectContainer nameOrId id | inspectImage name | pull name
  | inspectVolume name | createVolume name | setTimeout ms | cryptoWaitReady => exact ⟨rfl, rfl⟩

end Archipel.Docker
