import Archipel.Docker.Host

/-!
# The docker wrapper (orchestrator/src/docker.js)

Every method catches the errors of the daemon and answers `false`: a lookup
that fails and a container that is absent are the same to its callers. `none`
stands for the `false` of the methods that otherwise answer with an object.
-/

namespace Archipel.Docker

structure Instance where
  id : ContainerId
  description : Description

variable {σ : Type}

abbrev request (c : Call) : Async api σ String c.Ret := Async.call (A := api) c

def Summary.matches (container : Summary) (nameOrId : String) : Bool :=
  container.id.text == nameOrId ||
    (container.names.length > 0 && container.names[0]? == some ("/" ++ nameOrId))

def getImage (imageName : String) : Async api σ String Bool :=
  try
    let _ ← request (.inspectImage imageName)
    pure true
  catch _ => pure false

def pullImage (image : String) : Async api σ String Bool :=
  try
    let _ ← request (.pull image)
    pure true
  catch _ => pure false

def getVolume (name : String) : Async api σ String Bool :=
  try
    let _ ← request (.inspectVolume name)
    pure true
  catch _ => pure false

def createVolume (name : String) : Async api σ String Bool :=
  try
    let volume ← getVolume name
    if !volume then do
      let _ ← request (.createVolume name)
      pure true
    else
      pure false
  catch _ => pure false

def getContainer (nameOrId : String) : Async api σ String (Option Instance) :=
  try
    let containers ← request (.listContainers nameOrId)
    match List.find? (fun container => Summary.matches container nameOrId) containers with
    | none => pure none
    | some found => do
      let description ← request (.inspectContainer nameOrId found.id)
      pure (some ⟨found.id, description⟩)
  catch _ => pure none

def startContainer (containerData : ContainerData) : Async api σ String Bool :=
  try
    let container ← getContainer containerData.name
    match container with
    | none => do
      let image ← getImage containerData.image
      let pulled ← if image then pure true else pullImage containerData.image
      if !pulled then
        pure false
      else do
        let id ← request (.createContainer containerData)
        let _ ← request (.startContainer containerData.name id)
        pure true
    | some container =>
      if !container.description.running then do
        let _ ← request (.startContainer containerData.name container.id)
        pure true
      else
        pure false
  catch _ => pure false

def stopContainer (nameOrId : String) : Async api σ String Bool :=
  try
    match ← getContainer nameOrId with
    | some container => do
      let _ ← request (.stopContainer nameOrId container.id)
      pure true
    | none => pure false
  catch _ => pure false

def removeContainer (nameOrId : String) : Async api σ String Bool :=
  try
    match ← getContainer nameOrId with
    | some container => do
      let _ ← request (.removeContainer nameOrId container.id)
      pure true
    | none => pure false
  catch _ => pure false

def isContainerRunning (nameOrId : String) : Async api σ String Bool :=
  try
    match ← getContainer nameOrId with
    | some container => pure container.description.running
    | none => pure false
  catch _ => pure false

def Mount.endsWith (mount : Mount) (volumeName : String) : Bool :=
  match mount.name with
  | some name => name.endsWith volumeName
  | none => false

def getMount (containerNameOrId volumeName : String) : Async api σ String (Option Mount) :=
  try
    match ← getContainer containerNameOrId with
    | some container =>
      pure (container.description.mounts.find? fun mount => mount.endsWith volumeName)
    | none => pure none
  catch _ => pure none

/-! ### Looking a container up by its name -/

/-- A name that is no identifier. -/
def Plain (name : String) : Prop := ∀ id : ContainerId, id.text ≠ name

theorem summary_matches (c : Container) {name : String} (hplain : Plain name) :
    c.summary.matches name = true ↔ c.name = name := by
  have hid : (c.id.text == name) = false := by simpa using hplain c.id
  simp [Summary.matches, Container.summary, hid, String.append_right_inj]

theorem find_matches_none (h : Host) {name : String} (hplain : Plain name)
    (hf : (h.containers.map Container.summary).find? (fun c => Summary.matches c name) = none) :
    ∀ c ∈ h.containers, c.name ≠ name := by
  intro c hc hn
  have hm := List.find?_eq_none.mp hf c.summary (List.mem_map_of_mem hc)
  exact hm ((summary_matches c hplain).mpr hn)

theorem find_matches_some (h : Host) {name : String} (hplain : Plain name) {found : Summary}
    (hf : (h.containers.map Container.summary).find? (fun c => Summary.matches c name) =
      some found) : ∃ c ∈ h.containers, c.id = found.id ∧ c.name = name := by
  obtain ⟨c, hc, rfl⟩ := List.mem_map.mp (List.mem_of_find?_eq_some hf)
  have hm := List.find?_some (p := fun c => Summary.matches c name) hf
  exact ⟨c, hc, rfl, (summary_matches c hplain).mp hm⟩

/-! ### What the wrappers may do -/

open Async

def Call.harmless : Call → Prop
  | .createContainer _ => False
  | .startContainer _ _ => False
  | _ => True

def Call.quiet : Call → Prop
  | .createContainer _ => False
  | .startContainer _ _ => False
  | .stopContainer _ _ => False
  | .removeContainer _ _ => False
  | _ => True

variable {α : Type}

abbrev Harmless (m : Async api σ String α) : Prop := OnlyCalls Call.harmless m

abbrev Quiet (m : Async api σ String α) : Prop := OnlyCalls Call.quiet m

theorem Quiet.harmless {m : Async api σ String α} (hm : Quiet m) : Harmless m := by
  refine onlyCalls_mono (fun c hc => ?_) hm
  cases c <;> first | exact hc | trivial

theorem onlyCalls_request {p : Call → Prop} (c : Call) (hc : p c) :
    OnlyCalls p (request c : Async api σ String c.Ret) := onlyCalls_call (A := api) hc

section Lookups
variable {p : Call → Prop}

theorem onlyCalls_getContainer (name : String) (hlist : p (.listContainers name))
    (hinspect : ∀ id, p (.inspectContainer name id)) :
    OnlyCalls p (getContainer name : Async api σ String (Option Instance)) :=
  onlyCalls_tryCatch
    (onlyCalls_bind (onlyCalls_request (Call.listContainers name) hlist) fun containers => by
      split
      · trivial
      · exact onlyCalls_bind (onlyCalls_request (Call.inspectContainer name _) (hinspect _))
          fun _ => trivial)
    fun _ => trivial

theorem onlyCalls_isContainerRunning (name : String) (hlist : p (.listContainers name))
    (hinspect : ∀ id, p (.inspectContainer name id)) :
    OnlyCalls p (isContainerRunning name : Async api σ String Bool) :=
  onlyCalls_tryCatch
    (onlyCalls_bind (onlyCalls_getContainer name hlist hinspect) fun container => by
      cases container <;> trivial)
    fun _ => trivial

theorem onlyCalls_removeContainer (name : String) (hlist : p (.listContainers name))
    (hinspect : ∀ id, p (.inspectContainer name id))
    (hremove : ∀ id, p (.removeContainer name id)) :
    OnlyCalls p (removeContainer name : Async api σ String Bool) :=
  onlyCalls_tryCatch
    (onlyCalls_bind (onlyCalls_getContainer name hlist hinspect) fun container => by
      cases container with
      | none => trivial
      | some container =>
        exact onlyCalls_bind
          (onlyCalls_request (Call.removeContainer name container.id) (hremove _))
          fun _ => trivial)
    fun _ => trivial

theorem onlyCalls_getImage (name : String) (hinspect : p (.inspectImage name)) :
    OnlyCalls p (getImage name : Async api σ String Bool) :=
  onlyCalls_tryCatch
    (onlyCalls_bind (onlyCalls_request (Call.inspectImage name) hinspect) fun _ => trivial)
    fun _ => trivial

end Lookups

theorem quiet_getContainer (name : String) :
    Quiet (getContainer name : Async api σ String (Option Instance)) :=
  onlyCalls_getContainer name trivial fun _ => trivial

theorem quiet_isContainerRunning (name : String) :
    Quiet (isContainerRunning name : Async api σ String Bool) :=
  onlyCalls_isContainerRunning name trivial fun _ => trivial

theorem harmless_removeContainer (name : String) :
    Harmless (removeContainer name : Async api σ String Bool) :=
  onlyCalls_removeContainer name trivial (fun _ => trivial) fun _ => trivial

theorem quiet_getMount (name volumeName : String) :
    Quiet (getMount name volumeName : Async api σ String (Option Mount)) :=
  onlyCalls_tryCatch
    (onlyCalls_bind (quiet_getContainer name) fun container => by cases container <;> trivial)
    fun _ => trivial

theorem quiet_getImage (name : String) :
    Quiet (getImage name : Async api σ String Bool) := onlyCalls_getImage name trivial

theorem quiet_pullImage (name : String) :
    Quiet (pullImage name : Async api σ String Bool) :=
  onlyCalls_tryCatch
    (onlyCalls_bind (onlyCalls_request (Call.pull name) trivial) fun _ => trivial)
    fun _ => trivial

theorem quiet_createVolume (name : String) :
    Quiet (createVolume name : Async api σ String Bool) := by
  refine onlyCalls_tryCatch (onlyCalls_bind (onlyCalls_tryCatch
    (onlyCalls_bind (onlyCalls_request (Call.inspectVolume name) trivial) fun _ => trivial)
    fun _ => trivial) fun volume => ?_) fun _ => trivial
  split
  · exact onlyCalls_bind (onlyCalls_request (Call.createVolume name) trivial) fun _ => trivial
  · trivial

/-! ### The wrappers write no field -/

section Fields
variable {I : σ → Prop}

theorem maintains_request (c : Call) :
    Maintains (A := api) I (request c : Async api σ String c.Ret) := maintains_call (A := api) c

theorem maintains_getContainer (name : String) :
    Maintains (A := api) I (getContainer name : Async api σ String (Option Instance)) := by
  refine maintains_tryCatch (maintains_bind (maintains_request (.listContainers name))
    fun containers => ?_) fun _ => trivial
  split
  · trivial
  · exact maintains_bind (maintains_request (.inspectContainer name _)) fun _ => trivial

theorem maintains_isContainerRunning (name : String) :
    Maintains (A := api) I (isContainerRunning name : Async api σ String Bool) := by
  refine maintains_tryCatch (maintains_bind (maintains_getContainer name) fun container => ?_)
    fun _ => trivial
  cases container <;> trivial

theorem maintains_removeContainer (name : String) :
    Maintains (A := api) I (removeContainer name : Async api σ String Bool) := by
  refine maintains_tryCatch (maintains_bind (maintains_getContainer name) fun container => ?_)
    fun _ => trivial
  cases container with
  | none => trivial
  | some container =>
    exact maintains_bind (maintains_request (.removeContainer name container.id)) fun _ => trivial

theorem maintains_getMount (name volumeName : String) :
    Maintains (A := api) I (getMount name volumeName : Async api σ String (Option Mount)) := by
  refine maintains_tryCatch (maintains_bind (maintains_getContainer name) fun container => ?_)
    fun _ => trivial
  cases container <;> trivial

theorem maintains_createVolume (name : String) :
    Maintains (A := api) I (createVolume name : Async api σ String Bool) := by
  have hget : Maintains (A := api) I (getVolume name : Async api σ String Bool) :=
    maintains_tryCatch (maintains_bind (maintains_request (.inspectVolume name)) fun _ => trivial)
      fun _ => trivial
  refine maintains_tryCatch (maintains_bind hget fun volume => ?_) fun _ => trivial
  split
  · exact maintains_bind (maintains_request (.createVolume name)) fun _ => trivial
  · trivial

theorem maintains_startContainer (data : ContainerData) :
    Maintains (A := api) I (startContainer data : Async api σ String Bool) := by
  have himage : Maintains (A := api) I (getImage data.image : Async api σ String Bool) :=
    maintains_tryCatch (maintains_bind (maintains_request (.inspectImage data.image))
      fun _ => trivial) fun _ => trivial
  have hpull : Maintains (A := api) I (pullImage data.image : Async api σ String Bool) :=
    maintains_tryCatch (maintains_bind (maintains_request (.pull data.image)) fun _ => trivial)
      fun _ => trivial
  have hstart : ∀ id, Maintains (A := api) I (do
      let _ ← request (.startContainer data.name id)
      pure true : Async api σ String Bool) := fun id =>
    maintains_bind (maintains_request (.startContainer data.name id)) fun _ => trivial
  have hcreate : ∀ pulled : Bool, Maintains (A := api) I
      (if !pulled then pure false else do
        let id ← request (.createContainer data)
        let _ ← request (.startContainer data.name id)
        pure true : Async api σ String Bool) := by
    intro pulled
    split
    · trivial
    · exact maintains_bind (maintains_request (.createContainer data)) hstart
  refine maintains_tryCatch (maintains_bind (maintains_getContainer data.name) fun container => ?_)
    fun _ => trivial
  cases container with
  | some container =>
    dsimp only
    split
    · exact hstart container.id
    · trivial
  | none =>
    refine maintains_bind himage fun image => ?_
    dsimp only
    split
    · exact hcreate true
    · exact maintains_bind hpull hcreate

end Fields

end Archipel.Docker
