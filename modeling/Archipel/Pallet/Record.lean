import Archipel.Pallet.Leadership
import Archipel.Runs

/-!
# The events record the storage

The events are a journal: replayed in order from empty maps they give the
leaders, the led groups and the last heartbeat of every account. A call that
fails leaves the storage and the events as they are.
-/

namespace Archipel.Pallet

open Runs

variable {α : Type}

/-- What a reader of the events knows of the pallet. -/
structure View (α : Type) where
  leaders : StorageMap UInt32 α
  led : UInt32 → Bool
  groups : StorageMap α UInt32
  nodesStatus : StorageMap α UInt32
  heartbeats : StorageMap α ℕ

def View.empty : View α :=
  ⟨fun _ => none, fun _ => false, fun _ => none, fun _ => none, fun _ => none⟩

def Storage.view (s : Storage α) : View α :=
  ⟨s.leaders, s.getLeadedGroup, s.groups, s.nodesStatus, s.heartbeats⟩

def View.apply [DecidableEq α] (v : View α) : Event α → View α
  | .newLeader who groupId =>
    { v with
      leaders := Function.update v.leaders groupId (some who)
      led := Function.update v.led groupId true }
  | .giveUpLeader _ groupId =>
    { v with
      leaders := Function.update v.leaders groupId none
      led := Function.update v.led groupId false }
  | .newHeartbeat who groupId nodeStatus now =>
    { v with
      groups := Function.update v.groups who (some groupId)
      nodesStatus := Function.update v.nodesStatus who (some nodeStatus)
      heartbeats := Function.update v.heartbeats who (some now) }

def View.replay [DecidableEq α] (events : List (Event α)) : View α :=
  events.foldl View.apply View.empty

theorem getLeadedGroup_update (s t : Storage α) (g : UInt32) (led : Bool)
    (h : t.leadedGroup = Function.update s.leadedGroup g (some led)) :
    t.getLeadedGroup = Function.update s.getLeadedGroup g led := by
  funext g'
  by_cases hg : g' = g
  · simp [Storage.getLeadedGroup, h, hg]
  · simp [Storage.getLeadedGroup, h, Function.update_of_ne hg]

variable [DecidableEq α]

theorem lead_view (s : Storage α) (who : α) (g : UInt32) :
    (s.lead who g).view = s.view.apply (.newLeader who g) := by
  have hled := getLeadedGroup_update s (s.lead who g) g true rfl
  simp only [Storage.view, View.apply, hled]
  rfl

theorem unlead_view (s : Storage α) (who : α) (g : UInt32) :
    (s.unlead who g).view = s.view.apply (.giveUpLeader who g) := by
  have hled := getLeadedGroup_update s (s.unlead who g) g false rfl
  simp only [Storage.view, View.apply, hled]
  rfl

theorem beat_view (s : Storage α) (who : α) (g st : UInt32) (now : ℕ) :
    (s.beat who g st now).view = s.view.apply (.newHeartbeat who g st now) := by
  have hled : (s.beat who g st now).getLeadedGroup = s.getLeadedGroup := by
    funext g'
    simp [Storage.getLeadedGroup]
  simp only [Storage.view, View.apply, hled, beat_leaders]
  rfl

variable [Inhabited α]

theorem runCalls_eq_final (s : Storage α) (xs : List (Extrinsic α)) :
    runCalls s xs = final Extrinsic.execute s xs := by
  induction xs generalizing s with
  | nil => rfl
  | cons x xs ih => exact ih (x.execute s).2

theorem execute_journal :
    Journal (Extrinsic.execute (α := α)) Storage.events Storage.view View.apply where
  entry := by
    intro x s
    rcases execute_cases x s with ⟨e, he⟩ | ⟨who, g, st, -, -, he⟩ | ⟨who, old, g, -, -, he, -⟩ |
      ⟨who, g, -, -, he, -⟩
    · rw [he]
      exact .inl ⟨rfl, rfl⟩
    · rw [he]
      exact .inr ⟨.newHeartbeat who g st x.now, rfl, beat_view s who g st x.now⟩
    · rw [he]
      exact .inr ⟨.newLeader who g, rfl, lead_view s who g⟩
    · rw [he]
      exact .inr ⟨.giveUpLeader who g, rfl, unlead_view s who g⟩

theorem execute_error {x : Extrinsic α} {s : Storage α} {e : DispatchError}
    (h : (x.execute s).1 = .error e) : (x.execute s).2 = s := by
  rcases execute_cases x s with ⟨e', he⟩ | ⟨who, g, st, -, -, he⟩ | ⟨who, old, g, -, -, he, -⟩ |
    ⟨who, g, -, -, he, -⟩
  · rw [he]
  all_goals
    rw [he] at h
    cases h

omit [Inhabited α] in
theorem register_index (s : Storage α) (who a : α) :
    ((s.register who).accountsIndex a).isSome ↔ a = who ∨ (s.accountsIndex a).isSome := by
  unfold Storage.register
  cases hi : s.accountsIndex who with
  | none =>
    by_cases ha : a = who
    · simp [ha]
    · simp [ha]
  | some i =>
    by_cases ha : a = who
    · simp [ha, hi]
    · simp [ha]

/-- The accounts with an index are those that the events know. -/
def Storage.Known (s : Storage α) : Prop :=
  ∀ a, (s.accountsIndex a).isSome ↔ ∃ g st now, Event.newHeartbeat a g st now ∈ s.events

theorem execute_known (x : Extrinsic α) {s : Storage α} (hs : s.Known) :
    (x.execute s).2.Known := by
  rcases execute_cases x s with ⟨e, he⟩ | ⟨who, g, st, -, -, he⟩ | ⟨who, old, g, -, -, he, -⟩ |
    ⟨who, g, -, -, he, -⟩
  · rw [he]
    exact hs
  · rw [he]
    intro a
    have hi : (s.beat who g st x.now).accountsIndex = (s.register who).accountsIndex := rfl
    have hev : (s.beat who g st x.now).events = s.events ++ [.newHeartbeat who g st x.now] := rfl
    rw [hi, hev, register_index, hs a]
    constructor
    · rintro (ha | ⟨g', st', now, hm⟩)
      · exact ⟨g, st, x.now, by simp [ha]⟩
      · exact ⟨g', st', now, by simp [hm]⟩
    · rintro ⟨g', st', now, hm⟩
      rcases List.mem_append.mp hm with hm | hm
      · exact .inr ⟨g', st', now, hm⟩
      · have heq := List.mem_singleton.mp hm
        injection heq with ha
        exact .inl ha
  · rw [he]
    intro a
    simpa [Storage.lead] using hs a
  · rw [he]
    intro a
    simpa [Storage.unlead] using hs a

theorem runCalls_known (xs : List (Extrinsic α)) :
    (runCalls (Storage.empty : Storage α) xs).Known := by
  rw [runCalls_eq_final]
  refine final_induct (P := Storage.Known) ?_ (fun x t ht => execute_known x ht) xs
  intro a
  simp [Storage.empty]

theorem execute_giveUpLeader {x : Extrinsic α} {s : Storage α} {a : α} {g : UInt32}
    (h : (x.execute s).2.events = s.events ++ [.giveUpLeader a g]) :
    x.origin = .signed a ∧ x.call = .giveUpLeadership g ∧ s.getLeadedGroup g = true ∧
      s.getLeader g = a := by
  rcases execute_cases x s with ⟨e, he⟩ | ⟨who, g', st, -, -, he⟩ | ⟨who, old, g', -, -, he, -⟩ |
    ⟨who, g', ho, hc, he, hled, hlead⟩
  · rw [he] at h
    simp at h
  · rw [he] at h
    have heq := List.append_cancel_left h
    simp at heq
  · rw [he] at h
    have heq := List.append_cancel_left h
    simp at heq
  · rw [he] at h
    have heq := List.append_cancel_left h
    simp only [List.cons.injEq, Event.giveUpLeader.injEq, and_true] at heq
    obtain ⟨rfl, rfl⟩ := heq
    exact ⟨ho, hc, hled, hlead⟩

theorem giveUpLeader_by_leader (xs : List (Extrinsic α)) (pre : List (Event α)) (a : α)
    (g : UInt32) (post : List (Event α))
    (h : (runCalls Storage.empty xs).events = pre ++ .giveUpLeader a g :: post) :
    ∃ ys x zs, xs = ys ++ x :: zs ∧ (runCalls Storage.empty ys).events = pre ∧
      x.origin = .signed a ∧ x.call = .giveUpLeadership g ∧
      (runCalls Storage.empty ys).leaders g = some a := by
  rw [runCalls_eq_final] at h
  obtain ⟨ys, x, zs, hxs, hys, hx⟩ := execute_journal.origin rfl xs h
  rw [← runCalls_eq_final] at hys hx
  have hev : (x.execute (runCalls Storage.empty ys)).2.events =
      (runCalls Storage.empty ys).events ++ [.giveUpLeader a g] := by
    rw [hys]
    exact hx
  obtain ⟨ho, hc, hled, hlead⟩ := execute_giveUpLeader hev
  have hs := runCalls_consistent ys (empty_consistent (α := α)) g
  rw [hled] at hs
  obtain ⟨leader, hl⟩ := Option.isSome_iff_exists.mp hs.symm
  have heq : leader = a := by
    simpa [Storage.getLeader, hl] using hlead
  exact ⟨ys, x, zs, hxs, hys, ho, hc, by rw [hl, heq]⟩

/-- The events tell all there is to know of the pallet, a failed call tells and
changes nothing, and only the leader of a group gives it up. -/
theorem events_record_storage (xs : List (Extrinsic α)) :
    (∀ (x : Extrinsic α) (s : Storage α) (e : DispatchError),
      (x.execute s).1 = .error e → (x.execute s).2 = s) ∧
    View.replay (runCalls Storage.empty xs).events = (runCalls Storage.empty xs).view ∧
    (∀ a, ((runCalls Storage.empty xs).accountsIndex a).isSome ↔
      ∃ g st now, Event.newHeartbeat a g st now ∈ (runCalls Storage.empty xs).events) ∧
    (∀ g, (runCalls Storage.empty xs).getLeadedGroup g = true ↔
      ((runCalls Storage.empty xs).leaders g).isSome) ∧
    (∀ pre a g post, (runCalls Storage.empty xs).events = pre ++ .giveUpLeader a g :: post →
      ∃ ys x zs, xs = ys ++ x :: zs ∧ (runCalls Storage.empty ys).events = pre ∧
        x.origin = .signed a ∧ x.call = .giveUpLeadership g ∧
        (runCalls Storage.empty ys).leaders g = some a) := by
  have hreplay : View.replay (runCalls Storage.empty xs).events =
      (runCalls (Storage.empty : Storage α) xs).view := by
    rw [runCalls_eq_final]
    exact execute_journal.replay rfl xs
  have hled : ∀ g, (runCalls Storage.empty xs).getLeadedGroup g = true ↔
      ((runCalls (Storage.empty : Storage α) xs).leaders g).isSome := by
    intro g
    rw [runCalls_consistent xs empty_consistent g]
  exact ⟨fun _ _ _ h => execute_error h, hreplay, runCalls_known xs, hled,
    giveUpLeader_by_leader xs⟩

end Archipel.Pallet
