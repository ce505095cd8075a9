import Archipel.Orchestrator.Rules
import Archipel.Streak

/-!
# The grace period of a service that is not ready

Over successive calls of `serviceReadinessManagement` the counter holds the
streak of calls that found the active service not ready, capped at the
threshold, and the switch for sending heartbeats is a latch: such a call after a
full streak sets it, a ready service clears it.
-/

namespace Archipel.Orchestrator
open Async
open Polkadot (Mode)

variable {α : Type}

/-- The service answers the readiness check with `ready`. -/
def answeringReady (ready : Bool) : Env (api α) String Unit
  | .isServiceReadyToStart, _, r, _ => r = .ok ready
  | _, _, _, _ => True

theorem runs_serviceReadinessManagement {config : Config α} {ready : Bool} {s s' : State α}
    {mode : Option Mode} {out : Except String Bool} (hs : s.service = some { mode := mode })
    (h : Runs (answeringReady ready) (serviceReadinessManagement config) (s, ()) out (s', ())) :
    out = .ok (readiness config mode ready s).1 ∧ s' = (readiness config mode ready s).2 := by
  have hwp : wp (demonic (answeringReady ready)) free (serviceReadinessManagement config)
      (fun out y => out = .ok (readiness config mode ready s).1 ∧
        y.1 = (readiness config mode ready s).2) (s, ()) := by
    rw [wp_serviceReadinessManagement hs]
    intro r w hr
    have hready : r = .ok ready := hr
    rw [hready]
    dsimp only
    rw [hs]
    exact ⟨rfl, rfl⟩
  exact wp_runs hwp h

theorem serviceReadinessManagement_runs (config : Config α) (ready : Bool) {s : State α}
    {mode : Option Mode} (hs : s.service = some { mode := mode }) :
    Runs (answeringReady ready) (serviceReadinessManagement config) (s, ())
      (.ok (readiness config mode ready s).1) ((readiness config mode ready s).2, ()) := by
  have hwp : wp (angelic (answeringReady ready)) free (serviceReadinessManagement config)
      (fun out y => out = .ok (readiness config mode ready s).1 ∧
        y = ((readiness config mode ready s).2, ())) (s, ()) := by
    rw [wp_serviceReadinessManagement hs]
    refine ⟨.ok ready, (), rfl, ?_⟩
    dsimp only
    rw [hs]
    exact ⟨rfl, rfl⟩
  obtain ⟨out, y, hruns, rfl, rfl⟩ := angelic_runs hwp
  exact hruns

/-- Successive calls: call `n` takes the fields `before n` to `after n`. Between
two calls the service may change its mode and the other methods the fields that
the grace period does not use. -/
structure ReadinessCalls (config : Config α) (ready : ℕ → Bool) (mode : ℕ → Option Mode)
    (before after : ℕ → State α) (out : ℕ → Except String Bool) : Prop where
  count_init : (before 0).noReadyCount = 0
  send_init : (before 0).heartbeatSendEnabled = true
  service : ∀ n, (before n).service = some { mode := mode n }
  call : ∀ n, Runs (answeringReady (ready n)) (serviceReadinessManagement config)
    (before n, ()) (out n) (after n, ())
  count : ∀ n, (before (n + 1)).noReadyCount = (after n).noReadyCount
  send : ∀ n, (before (n + 1)).heartbeatSendEnabled = (after n).heartbeatSendEnabled

/-- Call `n` finds the active service not ready. -/
def Failing (ready : ℕ → Bool) (mode : ℕ → Option Mode) (n : ℕ) : Prop :=
  ready n = false ∧ mode n = some .active

instance (ready : ℕ → Bool) (mode : ℕ → Option Mode) : DecidablePred (Failing ready mode) :=
  fun n => inferInstanceAs (Decidable (ready n = false ∧ mode n = some .active))

/-! ### One call -/

section Readiness
variable {config : Config α} {ready : ℕ → Bool} {mode : ℕ → Option Mode} {n : ℕ} {s : State α}

theorem readiness_counting (hn : Failing ready mode n)
    (hlt : s.noReadyCount < config.noReadyThreshold) : readiness config (mode n) (ready n) s =
      (true, { s with noReadyCount := s.noReadyCount + 1 }) := by
  simp [readiness, hn.1, hn.2, hlt]

theorem readiness_exhausted (hn : Failing ready mode n)
    (hle : config.noReadyThreshold ≤ s.noReadyCount) : readiness config (mode n) (ready n) s =
      (false, { s with heartbeatSendEnabled := false }) := by
  have hlt : ¬ s.noReadyCount < config.noReadyThreshold := by omega
  simp [readiness, hn.1, hn.2, hlt]

theorem readiness_other (hn : ¬ Failing ready mode n) : readiness config (mode n) (ready n) s =
      (ready n, { s with
        heartbeatSendEnabled := ready n || s.heartbeatSendEnabled, noReadyCount := 0 }) := by
  have hcond : ¬ (!ready n && mode n = some .active) = true := by
    intro h
    simp only [Bool.and_eq_true, Bool.not_eq_true', decide_eq_true_eq] at h
    exact hn h
  simp only [readiness, if_neg hcond]

end Readiness

/-! ### Successive calls -/

namespace ReadinessCalls

variable {config : Config α} {ready : ℕ → Bool} {mode : ℕ → Option Mode}
  {before after : ℕ → State α} {out : ℕ → Except String Bool}

theorem out_eq (h : ReadinessCalls config ready mode before after out) (n : ℕ) :
    out n = .ok (readiness config (mode n) (ready n) (before n)).1 :=
  (runs_serviceReadinessManagement (h.service n) (h.call n)).1

theorem after_eq (h : ReadinessCalls config ready mode before after out) (n : ℕ) :
    after n = (readiness config (mode n) (ready n) (before n)).2 :=
  (runs_serviceReadinessManagement (h.service n) (h.call n)).2

theorem capped (h : ReadinessCalls config ready mode before after out) :
    Streak.Capped config.noReadyThreshold (Failing ready mode)
      fun n => (before n).noReadyCount := by
  constructor
  · intro n hn hlt
    rw [h.count n, h.after_eq n, readiness_counting hn hlt]
  · intro n hn hle
    rw [h.count n, h.after_eq n, readiness_exhausted hn hle]
  · intro n hn
    rw [h.count n, h.after_eq n, readiness_other hn]

theorem noReadyCount (h : ReadinessCalls config ready mode before after out) (n : ℕ) :
    (before n).noReadyCount = min config.noReadyThreshold (Streak.streak (Failing ready mode) n) :=
  h.capped.eq_min h.count_init n

theorem exhausted_iff (h : ReadinessCalls config ready mode before after out) (n : ℕ) :
    config.noReadyThreshold ≤ (before n).noReadyCount ↔
      config.noReadyThreshold ≤ Streak.streak (Failing ready mode) n := by
  have hcount := h.noReadyCount n
  omega

theorem latch (h : ReadinessCalls config ready mode before after out) :
    Streak.Latch (fun n => Failing ready mode n ∧
        config.noReadyThreshold ≤ Streak.streak (Failing ready mode) n)
      (fun n => ready n = true) fun n => (before n).heartbeatSendEnabled = false := by
  constructor
  · intro n hn
    rw [h.send n, h.after_eq n, readiness_exhausted hn.1 ((h.exhausted_iff n).mpr hn.2)]
  · intro n hready
    have hn : ¬ Failing ready mode n := by
      intro hf
      rw [hf.1] at hready
      cases hready
    rw [h.send n, h.after_eq n, readiness_other hn, hready]
    simp
  · intro n hn hready
    have hfalse : ready n = false := by simpa using hready
    rw [h.send n, h.after_eq n]
    by_cases hf : Failing ready mode n
    · have hlt : (before n).noReadyCount < config.noReadyThreshold := by
        by_contra hle
        exact hn ⟨hf, (h.exhausted_iff n).mp (by omega)⟩
      rw [readiness_counting hf hlt]
    · rw [readiness_other hf, hfalse]
      simp

/-- What a call answers, what it counts and whether it leaves the heartbeats
switched off, from the inputs of the calls so far. -/
theorem grace (h : ReadinessCalls config ready mode before after out) (n : ℕ) :
    (∃ answer, out n = .ok answer ∧ (answer = true ↔ ready n = true ∨
      (mode n = some .active ∧
        Streak.streak (Failing ready mode) n < config.noReadyThreshold))) ∧
    (before n).noReadyCount =
      min config.noReadyThreshold (Streak.streak (Failing ready mode) n) ∧
    (after n).noReadyCount =
      min config.noReadyThreshold (Streak.streak (Failing ready mode) (n + 1)) ∧
    ((after n).heartbeatSendEnabled = false ↔ ∃ k, k ≤ n ∧ Failing ready mode k ∧
      config.noReadyThreshold ≤ Streak.streak (Failing ready mode) k ∧
      ∀ j, k ≤ j → j ≤ n → ready j = false) := by
  have hlatch := h.latch.iff_since (by rw [h.send_init]; decide) (n + 1)
  rw [h.send n] at hlatch
  refine ⟨⟨_, h.out_eq n, ?_⟩, h.noReadyCount n, ?_, ?_⟩
  · by_cases hf : Failing ready mode n
    · by_cases hlt : (before n).noReadyCount < config.noReadyThreshold
      · have hstreak : Streak.streak (Failing ready mode) n < config.noReadyThreshold := by
          have hcount := h.noReadyCount n
          omega
        rw [readiness_counting hf hlt]
        simp [hf.2, hstreak]
      · have hstreak : ¬ Streak.streak (Failing ready mode) n < config.noReadyThreshold := by
          have hcount := h.noReadyCount n
          omega
        rw [readiness_exhausted hf (by omega)]
        simp [hf.1, hstreak]
    · rw [readiness_other hf]
      constructor
      · intro hready
        exact .inl hready
      · intro hgrace
        rcases hgrace with hready | ⟨hactive, -⟩
        · exact hready
        · by_contra hready
          exact hf ⟨by simpa using hready, hactive⟩
  · rw [← h.count n]
    exact h.noReadyCount (n + 1)
  · rw [hlatch]
    constructor
    · intro hlatched
      obtain ⟨k, hk, ⟨hf, hstreak⟩, hsince⟩ := hlatched
      exact ⟨k, by omega, hf, hstreak, fun j hj hjn => by simpa using hsince j hj (by omega)⟩
    · intro hlatched
      obtain ⟨k, hk, hf, hstreak, hsince⟩ := hlatched
      exact ⟨k, by omega, ⟨hf, hstreak⟩, fun j hj hjn => by simp [hsince j hj (by omega)]⟩

end ReadinessCalls

/-! ### A service that is never ready -/

def neverReady : ℕ → Bool := fun _ => false

def impatientNode : Config ℕ := { plainNode 1 with noReadyThreshold := 1 }

def leading (noReadyCount : ℕ) (heartbeatSendEnabled : Bool) : State ℕ :=
  { State.init impatientNode with
    service := some { mode := some .active }
    noReadyCount := noReadyCount
    heartbeatSendEnabled := heartbeatSendEnabled }

/-- The fields before call `n`. -/
def waiting : ℕ → State ℕ
  | 0 => leading 0 true
  | 1 => leading 1 true
  | _ + 2 => leading 1 false

theorem waiting_succ (n : ℕ) :
    waiting (n + 1) = (readiness impatientNode (some .active) false (waiting n)).2 := by
  cases n with
  | zero => rfl
  | succ n =>
    cases n with
    | zero => rfl
    | succ n => rfl

theorem waiting_calls : ReadinessCalls impatientNode neverReady (fun _ => some .active) waiting
    (fun n => waiting (n + 1))
    fun n => .ok (readiness impatientNode (some .active) false (waiting n)).1 := by
  have hservice : ∀ n, (waiting n).service = some { mode := some .active } := by
    intro n
    cases n with
    | zero => rfl
    | succ n => cases n <;> rfl
  have hcall : ∀ n, Runs (answeringReady (neverReady n)) (serviceReadinessManagement impatientNode)
      (waiting n, ()) (.ok (readiness impatientNode (some .active) false (waiting n)).1)
      (waiting (n + 1), ()) := by
    intro n
    rw [waiting_succ n]
    exact serviceReadinessManagement_runs impatientNode false (hservice n)
  exact ⟨rfl, rfl, hservice, hcall, fun _ => rfl, fun _ => rfl⟩

theorem grace_waiting :
    (∃ answer, (Except.ok (readiness impatientNode (some .active) false (waiting 1)).1 :
        Except String Bool) = .ok answer ∧ (answer = true ↔ neverReady 1 = true ∨
      (some Mode.active = some .active ∧
        Streak.streak (Failing neverReady fun _ => some .active) 1 < 1))) ∧
    (waiting 1).noReadyCount =
      min 1 (Streak.streak (Failing neverReady fun _ => some .active) 1) ∧
    (waiting 2).noReadyCount =
      min 1 (Streak.streak (Failing neverReady fun _ => some .active) (1 + 1)) ∧
    ((waiting 2).heartbeatSendEnabled = false ↔ ∃ k, k ≤ 1 ∧
      Failing neverReady (fun _ => some .active) k ∧
      1 ≤ Streak.streak (Failing neverReady fun _ => some .active) k ∧
      ∀ j, k ≤ j → j ≤ 1 → neverReady j = false) := waiting_calls.grace 1

end Archipel.Orchestrator
