import Archipel.Pallet.Registry

/-!
# Independent calls commute

A block author may order the calls freely. The leadership calls of one group
and the heartbeats of one account each act on a slice of the storage of their
own, so two orders that agree within these slices give every call the same
result and end in the same storage, the numbering of the accounts apart.
-/

namespace Archipel.Pallet

open Runs

variable {α : Type} [DecidableEq α]

/-! ### The slices of the storage -/

def Storage.leadership (s : Storage α) (g : UInt32) : Option α × Option Bool :=
  (s.leaders g, s.leadedGroup g)

def Storage.account (s : Storage α) (who : α) :
    Option UInt32 × Option ℕ × Option UInt32 × Bool :=
  (s.groups who, s.heartbeats who, s.nodesStatus who, (s.accountsIndex who).isSome)

omit [DecidableEq α] in
theorem lead_leadership_self (s : Storage α) (who : α) (g : UInt32) :
    (s.lead who g).leadership g = (some who, some true) := by
  simp [Storage.leadership, Storage.lead]

omit [DecidableEq α] in
theorem unlead_leadership_self (s : Storage α) (who : α) (g : UInt32) :
    (s.unlead who g).leadership g = (none, some false) := by
  simp [Storage.leadership, Storage.unlead]

theorem beat_account_self (s : Storage α) (who : α) (g st : UInt32) (now : ℕ) :
    (s.beat who g st now).account who = (some g, some now, some st, true) := by
  have hi : ((s.beat who g st now).accountsIndex who).isSome :=
    (register_index s who who).mpr (.inl rfl)
  simp only [Storage.account, hi]
  simp [Storage.beat]

theorem beat_account_ne (s : Storage α) {who a : α} (ha : a ≠ who) (g st : UInt32) (now : ℕ) :
    (s.beat who g st now).account a = s.account a := by
  have hi : ((s.beat who g st now).accountsIndex a).isSome = (s.accountsIndex a).isSome := by
    have h : ((s.beat who g st now).accountsIndex a).isSome ↔ a = who ∨
      (s.accountsIndex a).isSome := register_index s who a
    rw [Bool.eq_iff_iff, h]
    simp [ha]
  simp only [Storage.account, hi]
  simp [Storage.beat, Function.update_of_ne ha]

variable [Inhabited α] {τ : Type}

/-- A call with the tag by which its sender knows it. -/
def executeTagged (x : τ × Extrinsic α) (s : Storage α) : DispatchResult × Storage α :=
  x.2.execute s

theorem runCalls_tagged (s : Storage α) (xs : List (τ × Extrinsic α)) :
    runCalls s (xs.map Prod.snd) = final executeTagged s xs := by
  induction xs generalizing s with
  | nil => rfl
  | cons x xs ih => exact ih (x.2.execute s).2

theorem execute_leadership_frame (x : Extrinsic α) (s : Storage α) (g : UInt32)
    (hx : x.call.leads g = false) : (x.execute s).2.leadership g = s.leadership g := by
  rcases execute_cases x s with ⟨e, he⟩ | ⟨who, g', st, -, -, he⟩ | ⟨who, old, g', -, hc, he, -⟩ |
    ⟨who, g', -, hc, he, -⟩
  · rw [he]
  · rw [he]
    simp [Storage.leadership]
  · rw [hc] at hx
    have hne : g ≠ g' := fun h => by simp [Call.leads, h] at hx
    rw [he]
    simp [Storage.leadership, Storage.lead, Function.update_of_ne hne]
  · rw [hc] at hx
    have hne : g ≠ g' := fun h => by simp [Call.leads, h] at hx
    rw [he]
    simp [Storage.leadership, Storage.unlead, Function.update_of_ne hne]

theorem execute_leadership_agree (x : Extrinsic α) (s t : Storage α) (g : UInt32)
    (hx : x.call.leads g = true) (h : s.leadership g = t.leadership g) :
    (x.execute s).1 = (x.execute t).1 ∧
      (x.execute s).2.leadership g = (x.execute t).2.leadership g := by
  have hl : s.leaders g = t.leaders g := congrArg Prod.fst h
  have hled : s.getLeadedGroup g = t.getLeadedGroup g :=
    congrArg (fun v => v.2.getD false) h
  have hleader : s.getLeader g = t.getLeader g := by
    unfold Storage.getLeader
    rw [hl]
  rcases x with ⟨now, origin, call⟩
  cases origin with
  | root | none =>
    rw [execute_unsigned _ (by simp) s, execute_unsigned _ (by simp) t]
    exact ⟨rfl, h⟩
  | signed who =>
    cases call with
    | addHeartbeat g' st => cases hx
    | setLeader old g' =>
      have hg : g' = g := by simpa [Call.leads] using hx
      subst hg
      rw [execute_setLeader_signed, execute_setLeader_signed, hl]
      cases t.leaders g' with
      | none => exact ⟨rfl, by rw [lead_leadership_self, lead_leadership_self]⟩
      | some leader =>
        by_cases h1 : who = old
        · simp only [if_pos h1]
          exact ⟨trivial, h⟩
        · by_cases h2 : old = leader
          · simp only [if_neg h1, if_pos h2]
            exact ⟨trivial, by rw [lead_leadership_self, lead_leadership_self]⟩
          · simp only [if_neg h1, if_neg h2]
            exact ⟨trivial, h⟩
    | giveUpLeadership g' =>
      have hg : g' = g := by simpa [Call.leads] using hx
      subst hg
      rw [execute_giveUpLeadership_signed, execute_giveUpLeadership_signed, hled, hleader]
      by_cases h1 : t.getLeadedGroup g' = true
      · by_cases h2 : t.getLeader g' = who
        · simp only [if_pos h1, if_pos h2]
          exact ⟨trivial, by rw [unlead_leadership_self, unlead_leadership_self]⟩
        · simp only [if_pos h1, if_neg h2]
          exact ⟨trivial, h⟩
      · simp only [if_neg h1]
        exact ⟨trivial, h⟩

def groupSlice (g : UInt32) :
    Slice (executeTagged (α := α) (τ := τ)) (Option α × Option Bool) where
  sees x := x.2.call.leads g
  view s := s.leadership g
  frame x s hx := execute_leadership_frame x.2 s g hx
  agree x s t hx h := execute_leadership_agree x.2 s t g hx h

theorem execute_account_frame (x : Extrinsic α) (s : Storage α) (a : α)
    (hx : x.beater ≠ some a) : (x.execute s).2.account a = s.account a := by
  rcases execute_cases x s with ⟨e, he⟩ | ⟨who, g, st, ho, hc, he⟩ | ⟨who, old, g, -, -, he, -⟩ |
    ⟨who, g, -, -, he, -⟩
  · rw [he]
  · have hb : x.beater = some who := by simp [Extrinsic.beater, ho, hc]
    have hne : a ≠ who := fun ha => hx (by rw [hb, ha])
    rw [he]
    exact beat_account_ne s hne g st x.now
  · rw [he]
    rfl
  · rw [he]
    rfl

theorem execute_account_agree (x : Extrinsic α) (s t : Storage α) (a : α)
    (hx : x.beater = some a) : (x.execute s).1 = (x.execute t).1 ∧
      (x.execute s).2.account a = (x.execute t).2.account a := by
  obtain ⟨g, st, heq⟩ := beater_eq_some hx
  rw [heq, execute_addHeartbeat_signed, execute_addHeartbeat_signed, beat_account_self,
    beat_account_self]
  exact ⟨rfl, rfl⟩

def accountSlice (a : α) : Slice (executeTagged (α := α) (τ := τ))
    (Option UInt32 × Option ℕ × Option UInt32 × Bool) where
  sees x := decide (x.2.beater = some a)
  view s := s.account a
  frame x s hx := execute_account_frame x.2 s a (by simpa using hx)
  agree x s t hx _ := execute_account_agree x.2 s t a (by simpa using hx)

/-- A call without a signature fails whatever the storage is. -/
def unsignedSlice [DecidableEq τ] (y : τ × Extrinsic α) (hy : ∀ who, y.2.origin ≠ .signed who) :
    Slice (executeTagged (α := α) (τ := τ)) Unit where
  sees x := decide (x = y)
  view _ := ()
  frame _ _ _ := rfl
  agree x s t hx _ := by
    have hxy : x = y := by simpa using hx
    rw [executeTagged, executeTagged, hxy, execute_unsigned y.2 hy s, execute_unsigned y.2 hy t]
    exact ⟨rfl, rfl⟩

/-! ### Two orders of the same calls -/

/-- The same calls in an order that keeps the leadership calls of each group and
the heartbeats of each account as they are among themselves. -/
structure Reordered (xs ys : List (τ × Extrinsic α)) : Prop where
  perm : xs.Perm ys
  leads : ∀ g, xs.filter (fun x => x.2.call.leads g) = ys.filter (fun x => x.2.call.leads g)
  beats : ∀ who, xs.filter (fun x => x.2.beater = some who) =
    ys.filter (fun x => x.2.beater = some who)

omit [DecidableEq α] [Inhabited α] in
theorem unsigned_or_seen (x : Extrinsic α) : (∀ who, x.origin ≠ .signed who) ∨
    (∃ g, x.call.leads g = true) ∨ ∃ who, x.beater = some who := by
  rcases x with ⟨now, origin, call⟩
  cases origin with
  | root | none => exact .inl (by simp)
  | signed who =>
    cases call with
    | setLeader old g => exact .inr (.inl ⟨g, by simp [Call.leads]⟩)
    | giveUpLeadership g => exact .inr (.inl ⟨g, by simp [Call.leads]⟩)
    | addHeartbeat g st => exact .inr (.inr ⟨who, rfl⟩)

namespace Reordered

variable {xs ys : List (τ × Extrinsic α)}

theorem results (h : Reordered xs ys) (s : Storage α) :
    (Runs.results executeTagged s xs).Perm (Runs.results executeTagged s ys) := by
  classical
  refine results_perm s fun x _ => ?_
  rcases unsigned_or_seen x.2 with hx | ⟨g, hg⟩ | ⟨who, hwho⟩
  · refine ⟨Unit, unsignedSlice x hx, by simp [unsignedSlice], ?_⟩
    simp only [unsignedSlice, List.filter_eq, h.perm.count_eq x]
  · exact ⟨_, groupSlice g, hg, h.leads g⟩
  · exact ⟨_, accountSlice who, by simpa [accountSlice] using hwho, h.beats who⟩

theorem leadership (h : Reordered xs ys) (s : Storage α) (g : UInt32) :
    (runCalls s (xs.map Prod.snd)).leadership g = (runCalls s (ys.map Prod.snd)).leadership g := by
  rw [runCalls_tagged, runCalls_tagged]
  exact (groupSlice g).final_eq (h.leads g) s

theorem account (h : Reordered xs ys) (s : Storage α) (a : α) :
    (runCalls s (xs.map Prod.snd)).account a = (runCalls s (ys.map Prod.snd)).account a := by
  rw [runCalls_tagged, runCalls_tagged]
  exact (accountSlice a).final_eq (h.beats a) s

end Reordered

omit [Inhabited α] in
theorem Storage.Registers.count_eq {s t : Storage α} {r r' : List α} (hs : s.Registers r)
    (ht : t.Registers r')
    (h : ∀ a, (s.accountsIndex a).isSome = (t.accountsIndex a).isSome) :
    s.accountsCount = t.accountsCount := by
  have hmem : ∀ a, a ∈ r ↔ a ∈ r' := by
    intro a
    rw [← hs.index_isSome, ← ht.index_isSome, h a]
  have hlength : r.length = r'.length :=
    ((List.perm_ext_iff_of_nodup hs.nodup ht.nodup).mpr hmem).length_eq
  have hnil : r = [] ↔ r' = [] := by
    rw [← List.length_eq_zero_iff, ← List.length_eq_zero_iff, hlength]
  rw [hs.count, ht.count, hlength]
  simp only [hnil]

/-- Two orders of the same calls that keep the leadership calls of each group
and the heartbeats of each account in order give every call the same result and
end in the same storage, but for the numbers of the accounts that the calls
register. -/
theorem independent_calls_commute (s : Storage α) (hs : Reachable s)
    (xs ys : List (τ × Extrinsic α)) (h : Reordered xs ys) :
    (results executeTagged s xs).Perm (results executeTagged s ys) ∧
    (runCalls s (xs.map Prod.snd)).leaders = (runCalls s (ys.map Prod.snd)).leaders ∧
    (runCalls s (xs.map Prod.snd)).leadedGroup = (runCalls s (ys.map Prod.snd)).leadedGroup ∧
    (runCalls s (xs.map Prod.snd)).groups = (runCalls s (ys.map Prod.snd)).groups ∧
    (runCalls s (xs.map Prod.snd)).heartbeats = (runCalls s (ys.map Prod.snd)).heartbeats ∧
    (runCalls s (xs.map Prod.snd)).nodesStatus = (runCalls s (ys.map Prod.snd)).nodesStatus ∧
    (runCalls s (xs.map Prod.snd)).accountsCount = (runCalls s (ys.map Prod.snd)).accountsCount ∧
    (∀ a, ((runCalls s (xs.map Prod.snd)).accountsIndex a).isSome =
      ((runCalls s (ys.map Prod.snd)).accountsIndex a).isSome) ∧
    ∀ a i, s.accountsIndex a = some i →
      (runCalls s (xs.map Prod.snd)).accountsIndex a = some i ∧
      (runCalls s (ys.map Prod.snd)).accountsIndex a = some i := by
  obtain ⟨zs, rfl⟩ := hs
  have hl := h.leadership (runCalls Storage.empty zs)
  have ha := h.account (runCalls Storage.empty zs)
  have hleaders := funext fun g => congrArg Prod.fst (hl g)
  have hled := funext fun g => congrArg Prod.snd (hl g)
  have hgroups := funext fun a => congrArg Prod.fst (ha a)
  have hheartbeats := funext fun a => congrArg (fun v => v.2.1) (ha a)
  have hstatus := funext fun a => congrArg (fun v => v.2.2.1) (ha a)
  have hkeys : ∀ a, ((runCalls (runCalls Storage.empty zs) (xs.map Prod.snd)).accountsIndex
      a).isSome = ((runCalls (runCalls Storage.empty zs) (ys.map Prod.snd)).accountsIndex
      a).isSome := fun a => congrArg (fun v => v.2.2.2) (ha a)
  have hregs := fun us => runCalls_registers us (reachable_registers zs)
  have hcount := (hregs _).count_eq (hregs _) hkeys
  have hkeep : ∀ a i, (runCalls Storage.empty zs).accountsIndex a = some i → ∀ us,
      (runCalls (runCalls Storage.empty zs) us).accountsIndex a = some i :=
    fun a i hi us => runCalls_index_keep us hi
  exact ⟨h.results _, hleaders, hled, hgroups, hheartbeats, hstatus, hcount, hkeys,
    fun a i hi => ⟨hkeep a i hi _, hkeep a i hi _⟩⟩

/-- Account 5 is registered when accounts 10 and 20 send a heartbeat each. -/
def oneBeat : List (Extrinsic ℕ) := [⟨1, .signed 5, .addHeartbeat 1 0⟩]

def twoBeats : List (Bool × Extrinsic ℕ) := [(false, ⟨2, .signed 10, .addHeartbeat 1 0⟩),
  (true, ⟨2, .signed 20, .addHeartbeat 1 0⟩), (true, ⟨2, .signed 20, .setLeader 20 1⟩)]

theorem independent_calls_commute_two :
    let s := runCalls Storage.empty (oneBeat ++ twoBeats.map Prod.snd)
    let t := runCalls Storage.empty (oneBeat ++ twoBeats.reverse.map Prod.snd)
    s.leaders = t.leaders ∧ s.heartbeats = t.heartbeats ∧ s.accountsCount = t.accountsCount ∧
      s.accountsIndex 5 = some 0 ∧ t.accountsIndex 5 = some 0 ∧
      s.accountsIndex 10 = some 1 ∧ t.accountsIndex 10 = some 2 := by
  have hleads : ∀ g, twoBeats.filter (fun x => x.2.call.leads g) =
      twoBeats.reverse.filter (fun x => x.2.call.leads g) := by
    intro g
    simp [twoBeats, Call.leads, List.filter_cons]
  have hbeats : ∀ who, twoBeats.filter (fun x => x.2.beater = some who) =
      twoBeats.reverse.filter (fun x => x.2.beater = some who) := by
    intro who
    by_cases hfirst : who = 10
    · subst hfirst
      decide
    · simp [twoBeats, Extrinsic.beater, List.filter_cons, Ne.symm hfirst]
  have h : Reordered twoBeats twoBeats.reverse := ⟨(List.reverse_perm _).symm, hleads, hbeats⟩
  obtain ⟨-, hleaders, -, -, hheartbeats, -, hcount, -, hindex⟩ :=
    independent_calls_commute (runCalls Storage.empty oneBeat) ⟨oneBeat, rfl⟩ _ _ h
  obtain ⟨hfirst, hsecond⟩ := hindex 5 0 (by decide)
  exact ⟨hleaders, hheartbeats, hcount, hfirst, hsecond, by decide, by decide⟩

end Archipel.Pallet
