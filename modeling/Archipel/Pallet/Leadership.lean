import Archipel.Pallet.Basic

/-!
# Leadership in the pallet

What a call does to the leader of a group, and the use of `old_leader` as a
compare-and-swap: of all claims built from one snapshot of a group, the first
executed wins and the others leave the storage as it is.
-/

namespace Archipel.Pallet

variable {α : Type}

def Call.leads (groupId : UInt32) : Call α → Bool
  | .setLeader _ g => g == groupId
  | .giveUpLeadership g => g == groupId
  | .addHeartbeat _ _ => false

@[simp] theorem lead_leaders_self (s : Storage α) (who : α) (g : UInt32) :
    (s.lead who g).leaders g = some who := Function.update_self ..

@[simp] theorem unlead_leaders_self (s : Storage α) (who : α) (g : UInt32) :
    (s.unlead who g).leaders g = none := Function.update_self ..

theorem lead_leaders_ne (s : Storage α) (who : α) {g g' : UInt32} (h : g' ≠ g) :
    (s.lead who g).leaders g' = s.leaders g' := Function.update_of_ne h ..

theorem unlead_leaders_ne (s : Storage α) (who : α) {g g' : UInt32} (h : g' ≠ g) :
    (s.unlead who g).leaders g' = s.leaders g' := Function.update_of_ne h ..

variable [DecidableEq α]

theorem register_frame (s : Storage α) (who : α) :
    (s.register who).leaders = s.leaders ∧ (s.register who).leadedGroup = s.leadedGroup := by
  unfold Storage.register
  split <;> exact ⟨rfl, rfl⟩

@[simp] theorem beat_leaders (s : Storage α) (who : α) (g st : UInt32) (now : ℕ) :
    (s.beat who g st now).leaders = s.leaders := (register_frame s who).1

@[simp] theorem beat_leadedGroup (s : Storage α) (who : α) (g st : UInt32) (now : ℕ) :
    (s.beat who g st now).leadedGroup = s.leadedGroup := (register_frame s who).2

variable [Inhabited α]

theorem execute_cases (x : Extrinsic α) (s : Storage α) :
    (∃ e, x.execute s = (.error e, s)) ∨
    (∃ who g st, x.origin = .signed who ∧ x.call = .addHeartbeat g st ∧
      x.execute s = (.ok (), s.beat who g st x.now)) ∨
    (∃ who old g, x.origin = .signed who ∧ x.call = .setLeader old g ∧
      x.execute s = (.ok (), s.lead who g) ∧
      ∀ leader, s.leaders g = some leader → who ≠ old ∧ old = leader) ∨
    (∃ who g, x.origin = .signed who ∧ x.call = .giveUpLeadership g ∧
      x.execute s = (.ok (), s.unlead who g) ∧
      s.getLeadedGroup g = true ∧ s.getLeader g = who) := by
  rcases x with ⟨now, origin, call⟩
  cases origin with
  | root | none => exact .inl ⟨.badOrigin, execute_unsigned _ (by simp) s⟩
  | signed who =>
    cases call with
    | addHeartbeat g st =>
      exact .inr (.inl ⟨who, g, st, rfl, rfl, execute_addHeartbeat_signed now who g st s⟩)
    | setLeader old g =>
      have hx := execute_setLeader_signed now who old g s
      cases hl : s.leaders g with
      | none =>
        rw [hl] at hx
        exact .inr (.inr (.inl ⟨who, old, g, rfl, rfl, hx, by simp [hl]⟩))
      | some leader =>
        simp only [hl] at hx
        by_cases h1 : who = old
        · rw [if_pos h1] at hx
          exact .inl ⟨_, hx⟩
        · rw [if_neg h1] at hx
          by_cases h2 : old = leader
          · rw [if_pos h2] at hx
            refine .inr (.inr (.inl ⟨who, old, g, rfl, rfl, hx, ?_⟩))
            intro l hl'
            rw [hl] at hl'
            exact ⟨h1, h2.trans (Option.some.inj hl')⟩
          · rw [if_neg h2] at hx
            exact .inl ⟨_, hx⟩
    | giveUpLeadership g =>
      have hx := execute_giveUpLeadership_signed now who g s
      by_cases h1 : s.getLeadedGroup g = true
      · rw [if_pos h1] at hx
        by_cases h2 : s.getLeader g = who
        · rw [if_pos h2] at hx
          exact .inr (.inr (.inr ⟨who, g, rfl, rfl, hx, h1, h2⟩))
        · rw [if_neg h2] at hx
          exact .inl ⟨_, hx⟩
      · rw [if_neg h1] at hx
        exact .inl ⟨_, hx⟩

theorem execute_leaders_frame (x : Extrinsic α) (s : Storage α) (g : UInt32)
    (hx : x.call.leads g = false) : (x.execute s).2.leaders g = s.leaders g := by
  rcases execute_cases x s with ⟨e, he⟩ | ⟨who, g', st, -, -, he⟩ | ⟨who, old, g', -, hc, he, -⟩ |
    ⟨who, g', -, hc, he, -⟩
  · rw [he]
  · rw [he, beat_leaders]
  · rw [hc] at hx
    have hne : g ≠ g' := fun h => by simp [Call.leads, h] at hx
    rw [he, lead_leaders_ne s who hne]
  · rw [hc] at hx
    have hne : g ≠ g' := fun h => by simp [Call.leads, h] at hx
    rw [he, unlead_leaders_ne s who hne]

theorem runCalls_leaders_frame (xs : List (Extrinsic α)) (s : Storage α) (g : UInt32)
    (hxs : ∀ x ∈ xs, x.call.leads g = false) : (runCalls s xs).leaders g = s.leaders g := by
  induction xs generalizing s with
  | nil => rfl
  | cons x xs ih =>
    rw [runCalls_cons, ih (x.execute s).2 fun y hy => hxs y (List.mem_cons_of_mem x hy)]
    exact execute_leaders_frame x s g (hxs x (List.mem_cons_self ..))

/-- A group counts as led when it has a leader. -/
def Storage.Consistent (s : Storage α) : Prop :=
  ∀ g, s.getLeadedGroup g = (s.leaders g).isSome

omit [DecidableEq α] [Inhabited α] in
theorem lead_consistent {s : Storage α} (hs : s.Consistent) (who : α) (g : UInt32) :
    (s.lead who g).Consistent := by
  intro g'
  by_cases hg : g' = g
  · subst hg
    rw [lead_leaders_self]
    simp [Storage.getLeadedGroup, Storage.lead]
  · rw [lead_leaders_ne s who hg, ← hs g']
    simp [Storage.getLeadedGroup, Storage.lead, Function.update_of_ne hg]

omit [DecidableEq α] [Inhabited α] in
theorem unlead_consistent {s : Storage α} (hs : s.Consistent) (who : α) (g : UInt32) :
    (s.unlead who g).Consistent := by
  intro g'
  by_cases hg : g' = g
  · subst hg
    rw [unlead_leaders_self]
    simp [Storage.getLeadedGroup, Storage.unlead]
  · rw [unlead_leaders_ne s who hg, ← hs g']
    simp [Storage.getLeadedGroup, Storage.unlead, Function.update_of_ne hg]

theorem execute_consistent (x : Extrinsic α) {s : Storage α} (hs : s.Consistent) :
    (x.execute s).2.Consistent := by
  rcases execute_cases x s with ⟨e, he⟩ | ⟨who, g, st, -, -, he⟩ | ⟨who, old, g, -, -, he, -⟩ |
    ⟨who, g, -, -, he, -⟩
  · rw [he]
    exact hs
  · rw [he]
    intro g'
    unfold Storage.getLeadedGroup
    rw [beat_leaders, beat_leadedGroup]
    exact hs g'
  · rw [he]
    exact lead_consistent hs who g
  · rw [he]
    exact unlead_consistent hs who g

theorem runCalls_consistent (xs : List (Extrinsic α)) {s : Storage α} (hs : s.Consistent) :
    (runCalls s xs).Consistent := by
  induction xs generalizing s with
  | nil => exact hs
  | cons x xs ih => exact ih (execute_consistent x hs)

omit [DecidableEq α] [Inhabited α] in
theorem empty_consistent : (Storage.empty : Storage α).Consistent := fun _ => rfl

theorem setLeader_ok (now : ℕ) (who old : α) (g : UInt32) (s : Storage α) (leader : α)
    (hl : s.leaders g = some leader)
    (hok : ((⟨now, .signed who, .setLeader old g⟩ : Extrinsic α).execute s).1 = .ok ()) :
    who ≠ leader ∧ old = leader ∧
      (⟨now, .signed who, .setLeader old g⟩ : Extrinsic α).execute s = (.ok (), s.lead who g) := by
  have hx := execute_setLeader_signed now who old g s
  simp only [hl] at hx
  by_cases h1 : who = old
  · rw [if_pos h1] at hx
    rw [hx] at hok
    cases hok
  · rw [if_neg h1] at hx
    by_cases h2 : old = leader
    · rw [if_pos h2] at hx
      exact ⟨fun h => h1 (h.trans h2.symm), h2, hx⟩
    · rw [if_neg h2] at hx
      rw [hx] at hok
      cases hok

/-! ### Claims built from one snapshot -/

/-- A `set_leader` on the group as an account builds it from the snapshot `s`:
it names the leader, which is another account, or itself when the group is
unled. -/
def Claim (s : Storage α) (groupId : UInt32) (x : Extrinsic α) : Prop :=
  ∃ who, x.origin = .signed who ∧
    match s.leaders groupId with
    | some leader => who ≠ leader ∧ x.call = .setLeader leader groupId
    | none => x.call = .setLeader who groupId

theorem claim_wins (s t : Storage α) (g : UInt32) (x : Extrinsic α) (hx : Claim s g x)
    (ht : t.leaders g = s.leaders g) :
    ∃ who, x.origin = .signed who ∧ x.execute t = (.ok (), t.lead who g) := by
  rcases x with ⟨now, origin, call⟩
  obtain ⟨who, ho, hc⟩ := hx
  dsimp only at ho hc
  subst ho
  refine ⟨who, rfl, ?_⟩
  cases hl : s.leaders g with
  | none =>
    simp only [hl] at hc
    rw [hc, execute_setLeader_signed, ht, hl]
  | some leader =>
    simp only [hl] at hc
    rw [hc.2, execute_setLeader_signed, ht, hl]
    simp only [if_neg hc.1, if_true]

theorem claim_loses (s t : Storage α) (g : UInt32) (y : Extrinsic α) (hy : Claim s g y)
    (winner : α) (ht : t.leaders g = some winner) (hw : s.leaders g ≠ some winner) :
    ∃ e, y.execute t = (.error e, t) := by
  rcases y with ⟨now, origin, call⟩
  obtain ⟨who, ho, hc⟩ := hy
  dsimp only at ho hc
  subst ho
  cases hl : s.leaders g with
  | none =>
    simp only [hl] at hc
    rw [hc, execute_setLeader_signed, ht]
    simp only [if_true]
    exact ⟨_, rfl⟩
  | some leader =>
    simp only [hl] at hc
    rw [hl] at hw
    have hne : leader ≠ winner := fun h => hw (congrArg some h)
    rw [hc.2, execute_setLeader_signed, ht]
    simp only [if_neg hc.1, if_neg hne]
    exact ⟨_, rfl⟩

theorem runCalls_claims_keep (s : Storage α) (g : UInt32) (winner : α)
    (hw : s.leaders g ≠ some winner) (xs : List (Extrinsic α)) (t : Storage α)
    (ht : t.leaders g = some winner)
    (hxs : ∀ x ∈ xs, x.call.leads g = true → Claim s g x) :
    (runCalls t xs).leaders g = some winner := by
  induction xs generalizing t with
  | nil => exact ht
  | cons x xs ih =>
    have hrest : ∀ y ∈ xs, y.call.leads g = true → Claim s g y :=
      fun y hy => hxs y (List.mem_cons_of_mem x hy)
    cases hx : x.call.leads g with
    | false =>
      have hf := execute_leaders_frame x t g hx
      exact ih (x.execute t).2 (hf.trans ht) hrest
    | true =>
      obtain ⟨e, he⟩ := claim_loses s t g x (hxs x (List.mem_cons_self ..) hx) winner ht hw
      rw [runCalls_cons, he]
      exact ih t ht hrest

theorem claims_first_wins (s : Storage α) (g : UInt32) (xs : List (Extrinsic α))
    (hclaim : ∀ x ∈ xs, x.call.leads g = true → Claim s g x)
    (hne : ∃ x ∈ xs, x.call.leads g = true) :
    ∃ pre x post, xs = pre ++ x :: post ∧ (∀ y ∈ pre, y.call.leads g = false) ∧
      x.call.leads g = true ∧ (x.execute (runCalls s pre)).1 = .ok () ∧
      ∀ mid y rest, post = mid ++ y :: rest → y.call.leads g = true →
        ∃ e, y.execute (runCalls s (pre ++ x :: mid)) =
          (.error e, runCalls s (pre ++ x :: mid)) := by
  obtain ⟨x, hfind⟩ := Option.isSome_iff_exists.mp (List.find?_isSome.mpr hne)
  obtain ⟨hx, pre, post, rfl, hfirst⟩ := List.find?_eq_some_iff_append.mp hfind
  have hpre : ∀ y ∈ pre, y.call.leads g = false := fun y hy => by simpa using hfirst y hy
  have hs := runCalls_leaders_frame pre s g hpre
  have hxc : Claim s g x := hclaim x (by simp) hx
  obtain ⟨who, ho, hwin⟩ := claim_wins s (runCalls s pre) g x hxc hs
  have hw : s.leaders g ≠ some who := by
    obtain ⟨who', ho', hc⟩ := hxc
    rw [ho] at ho'
    cases ho'
    intro hl
    simp only [hl] at hc
    exact hc.1 rfl
  refine ⟨pre, x, post, rfl, hpre, hx, by rw [hwin], ?_⟩
  rintro mid y rest rfl hy
  rw [runCalls_append, runCalls_cons, hwin]
  have hmid : ∀ z ∈ mid, z.call.leads g = true → Claim s g z :=
    fun z hz => hclaim z (by simp [hz])
  have hled := runCalls_claims_keep s g who hw mid ((runCalls s pre).lead who g)
    (lead_leaders_self ..) hmid
  exact claim_loses s _ g y (hclaim y (by simp) hy) who hled hw

theorem runCalls_led_by (xs : List (Extrinsic α)) (s : Storage α) (g : UInt32) (leader : α)
    (hs : s.leaders g ≠ some leader) (hled : (runCalls s xs).leaders g = some leader) :
    ∃ pre y post old, xs = pre ++ y :: post ∧ y.origin = .signed leader ∧
      y.call = .setLeader old g ∧ (y.execute (runCalls s pre)).1 = .ok () := by
  induction xs generalizing s with
  | nil => exact absurd hled hs
  | cons x xs ih =>
    by_cases hx : (x.execute s).2.leaders g = some leader
    · rcases execute_cases x s with ⟨e, he⟩ | ⟨who, g', st, -, -, he⟩ |
        ⟨who, old, g', ho, hc, he, -⟩ | ⟨who, g', -, -, he, -⟩
      · rw [he] at hx
        exact absurd hx hs
      · rw [he, beat_leaders] at hx
        exact absurd hx hs
      · rw [he] at hx
        by_cases hg : g = g'
        · subst hg
          rw [lead_leaders_self] at hx
          cases hx
          exact ⟨[], x, xs, old, rfl, ho, hc, by rw [runCalls_nil, he]⟩
        · rw [lead_leaders_ne s who hg] at hx
          exact absurd hx hs
      · rw [he] at hx
        by_cases hg : g = g'
        · subst hg
          rw [unlead_leaders_self] at hx
          cases hx
        · rw [unlead_leaders_ne s who hg] at hx
          exact absurd hx hs
    · obtain ⟨pre, y, post, old, rfl, ho, hc, hok⟩ := ih (x.execute s).2 hx hled
      exact ⟨x :: pre, y, post, old, rfl, ho, hc, hok⟩

/-- `old_leader` makes a leadership claim a compare-and-swap: of the claims
built from one snapshot the first executed wins and the others change nothing;
a claim on a led group changes its leader; and two claims that displace the
same leader have a claim by that leader between them. -/
theorem set_leader_compare_and_swap (s : Storage α) (g : UInt32) :
    (∀ xs : List (Extrinsic α), (∀ x ∈ xs, x.call.leads g = true → Claim s g x) →
      (∃ x ∈ xs, x.call.leads g = true) →
      ∃ pre x post, xs = pre ++ x :: post ∧ (∀ y ∈ pre, y.call.leads g = false) ∧
        x.call.leads g = true ∧ (x.execute (runCalls s pre)).1 = .ok () ∧
        ∀ mid y rest, post = mid ++ y :: rest → y.call.leads g = true →
          ∃ e, y.execute (runCalls s (pre ++ x :: mid)) =
            (.error e, runCalls s (pre ++ x :: mid))) ∧
    (∀ now who old leader, s.leaders g = some leader →
      ((⟨now, .signed who, .setLeader old g⟩ : Extrinsic α).execute s).1 = .ok () →
      ((⟨now, .signed who, .setLeader old g⟩ : Extrinsic α).execute s).2.leaders g = some who ∧
        who ≠ leader) ∧
    (∀ (now₁ now₂ : ℕ) (a b old : α) (mid : List (Extrinsic α)), (s.leaders g).isSome →
      ((⟨now₁, .signed a, .setLeader old g⟩ : Extrinsic α).execute s).1 = .ok () →
      (runCalls s (⟨now₁, .signed a, .setLeader old g⟩ :: mid)).leaders g ≠ none →
      ((⟨now₂, .signed b, .setLeader old g⟩ : Extrinsic α).execute
        (runCalls s (⟨now₁, .signed a, .setLeader old g⟩ :: mid))).1 = .ok () →
      ∃ pre y post old', mid = pre ++ y :: post ∧ y.origin = .signed old ∧
        y.call = .setLeader old' g ∧
        (y.execute (runCalls s (⟨now₁, .signed a, .setLeader old g⟩ :: pre))).1 = .ok ()) := by
  refine ⟨claims_first_wins s g, ?_, ?_⟩
  · intro now who old leader hl hok
    obtain ⟨hne, -, he⟩ := setLeader_ok now who old g s leader hl hok
    rw [he]
    exact ⟨lead_leaders_self .., hne⟩
  · intro now₁ now₂ a b old mid hled₁ hok₁ hled₂ hok₂
    obtain ⟨l₁, hl₁⟩ := Option.isSome_iff_exists.mp hled₁
    obtain ⟨l₂, hl₂⟩ := Option.ne_none_iff_exists'.mp hled₂
    obtain ⟨hne, hold₁, he⟩ := setLeader_ok now₁ a old g s l₁ hl₁ hok₁
    obtain ⟨-, hold₂, -⟩ := setLeader_ok now₂ b old g _ l₂ hl₂ hok₂
    have ha : (s.lead a g).leaders g ≠ some old := by
      rw [lead_leaders_self, hold₁]
      exact fun h => hne (Option.some.inj h)
    have hmid : (runCalls (s.lead a g) mid).leaders g = some old := by
      rw [runCalls_cons, he] at hl₂
      rw [hl₂, hold₂]
    obtain ⟨pre, y, post, old', rfl, ho, hc, hok⟩ := runCalls_led_by mid (s.lead a g) g old ha hmid
    exact ⟨pre, y, post, old', rfl, ho, hc, by rw [runCalls_cons, he]; exact hok⟩

theorem set_leader_compare_and_swap_claims :
    (∃ pre x post,
      ([⟨7, .signed 10, .setLeader 10 1⟩, ⟨7, .signed 20, .setLeader 20 1⟩] : List (Extrinsic ℕ)) =
        pre ++ x :: post ∧ (∀ y ∈ pre, y.call.leads 1 = false) ∧ x.call.leads 1 = true ∧
        (x.execute (runCalls Storage.empty pre)).1 = .ok () ∧
        ∀ mid y rest, post = mid ++ y :: rest → y.call.leads 1 = true →
          ∃ e, y.execute (runCalls Storage.empty (pre ++ x :: mid)) =
            (.error e, runCalls Storage.empty (pre ++ x :: mid))) ∧
    (20 : ℕ) ≠ 10 ∧
    ∃ pre y post old',
      ([⟨8, .signed 10, .setLeader 20 1⟩] : List (Extrinsic ℕ)) = pre ++ y :: post ∧
      y.origin = .signed 10 ∧ y.call = .setLeader old' 1 ∧
      (y.execute (runCalls ((Storage.empty : Storage ℕ).lead 10 1)
        (⟨7, .signed 20, .setLeader 10 1⟩ :: pre))).1 = .ok () := by
  refine ⟨(set_leader_compare_and_swap Storage.empty 1).1 _ ?_ ?_, ?_, ?_⟩
  · intro x hx _
    simp only [List.mem_cons, List.not_mem_nil, or_false] at hx
    rcases hx with rfl | rfl
    · exact ⟨10, rfl, rfl⟩
    · exact ⟨20, rfl, rfl⟩
  · exact ⟨⟨7, .signed 10, .setLeader 10 1⟩, by simp, rfl⟩
  · exact ((set_leader_compare_and_swap ((Storage.empty : Storage ℕ).lead 10 1) 1).2.1
      7 20 10 10 rfl rfl).2
  · exact (set_leader_compare_and_swap ((Storage.empty : Storage ℕ).lead 10 1) 1).2.2
      7 9 20 30 10 [⟨8, .signed 10, .setLeader 20 1⟩] rfl rfl (by decide) rfl

end Archipel.Pallet
