import Archipel.Federation.Detector

/-!
# Timely heartbeats keep the leader

When the heartbeats of the leader are never more than a period apart and the
other nodes of its group tick with no older undelivered heartbeat than a delay,
and the two together are within `aliveTime`, then nobody takes the leadership
from it, in every run. What a node knows of the leader and what is on its way to
it make a chain of heartbeats up to the last one in the storage.
-/

namespace Archipel.Federation
open Async
open Pallet (Storage Extrinsic Event)

/-! ### Chains of heartbeats -/

/-- From a first block over the blocks of the list to the last one no gap is
longer than the period. -/
def Spaced (period : ℕ) : ℕ → List ℕ → ℕ → Prop
  | first, [], last => last ≤ first
  | first, n :: rest, last => 0 < n ∧ n ≤ first + period ∧ Spaced period n rest last

section Spaced
variable {period first last n : ℕ} {rest : List ℕ}

theorem Spaced.snoc (h : Spaced period first rest last) (hn : 0 < n) (hlast : n ≤ last + period) :
    Spaced period first (rest ++ [n]) n := by
  induction rest generalizing first with
  | nil =>
    have hfirst : last ≤ first := h
    exact ⟨hn, by omega, le_refl n⟩
  | cons m rest ih =>
    obtain ⟨hm, hgap, hrest⟩ := h
    exact ⟨hm, hgap, ih hrest⟩

/-- When nothing in the chain is older than the delay its begin is not much older. -/
theorem Spaced.recent {block delay : ℕ} (h : Spaced period first rest last)
    (hlast : block ≤ last + period) (hrest : ∀ n ∈ rest, block ≤ n + delay) :
    block ≤ first + period + delay := by
  cases rest with
  | nil =>
    have hfirst : last ≤ first := h
    omega
  | cons n rest =>
    have hgap : n ≤ first + period := h.2.1
    have hdelay := hrest n (List.mem_cons_self ..)
    omega

end Spaced

variable {ι α : Type} [DecidableEq α] [Inhabited α]

/-! ### The heartbeats of one account -/

/-- The block of a heartbeat of the account. -/
def beatOf (who : α) : Event α → Option ℕ
  | .newHeartbeat other _ _ now => if other = who then some now else none
  | _ => none

/-- The blocks of the heartbeats of the account, in the order of the events. -/
def beats (who : α) (events : List (Event α)) : List ℕ := events.filterMap (beatOf who)

omit [Inhabited α] in
theorem beats_snoc_none {who : α} {e : Event α} (h : beatOf who e = none)
    (events : List (Event α)) : beats who (events ++ [e]) = beats who events := by
  simp [beats, h]

omit [Inhabited α] in
theorem beats_snoc_some {who : α} {e : Event α} {n : ℕ} (h : beatOf who e = some n)
    (events : List (Event α)) : beats who (events ++ [e]) = beats who events ++ [n] := by
  simp [beats, h]

omit [Inhabited α] in
theorem beatOf_eq_some {who : α} {e : Event α} {n : ℕ} (h : beatOf who e = some n) :
    ∃ g st, e = .newHeartbeat who g st n := by
  cases e with
  | newHeartbeat other g st now =>
    by_cases hother : other = who
    · rw [beatOf, if_pos hother] at h
      cases h
      exact ⟨g, st, by rw [hother]⟩
    · rw [beatOf, if_neg hother] at h
      cases h
  | newLeader other g | giveUpLeader other g => cases h

/-- The record of the leader and the events that a node has not seen make a chain
up to the last heartbeat of the leader, which is recent. -/
structure Abreast (period block delivered record : ℕ) (leader : α) (s : Storage α) : Prop where
  recent : block ≤ s.getHeartbeat leader + period
  emitted : delivered ≤ s.events.length
  spaced : Spaced period record (beats leader (s.events.drop delivered)) (s.getHeartbeat leader)

section Abreast
variable {period block delivered record : ℕ} {leader : α} {s : Storage α}

omit [Inhabited α] in
theorem Abreast.quiet {s' : Storage α} {e : Event α}
    (h : Abreast period block delivered record leader s) (he : beatOf leader e = none)
    (hevents : s'.events = s.events ++ [e])
    (hbeat : s'.getHeartbeat leader = s.getHeartbeat leader) :
    Abreast period block delivered record leader s' := by
  refine ⟨hbeat ▸ h.recent, ?_, ?_⟩
  · have hemitted := h.emitted
    rw [hevents, List.length_append]
    omega
  · rw [hevents, List.drop_append_of_le_length h.emitted, beats_snoc_none he, hbeat]
    exact h.spaced

theorem abreast_kept (hblock : 0 < block) :
    KeptAt block (Abreast period block delivered record leader) := by
  intro x hnow s h
  rcases Pallet.execute_cases x s with ⟨e, he⟩ | ⟨who, g, st, -, -, he⟩ |
    ⟨who, old, g, -, -, he, -⟩ | ⟨who, g, -, -, he, -⟩
  · rw [he]
    exact h
  · rw [he, hnow]
    have hget := getHeartbeat_beat s who leader g st block
    by_cases hwho : who = leader
    · subst hwho
      rw [if_pos rfl] at hget
      have hevents : (s.beat who g st block).events = s.events ++ [.newHeartbeat who g st block] :=
        rfl
      have hbeat : beatOf who (.newHeartbeat who g st block) = some block := if_pos rfl
      refine ⟨?_, ?_, ?_⟩
      · rw [hget]
        omega
      · have hemitted := h.emitted
        rw [hevents, List.length_append]
        omega
      · rw [hevents, List.drop_append_of_le_length h.emitted, beats_snoc_some hbeat, hget]
        exact h.spaced.snoc hblock h.recent
    · rw [if_neg (Ne.symm hwho)] at hget
      exact h.quiet (e := .newHeartbeat who g st block) (if_neg hwho) rfl hget
  · rw [he]
    exact h.quiet (e := .newLeader who g) rfl rfl rfl
  · rw [he]
    exact h.quiet (e := .giveUpLeader who g) rfl rfl rfl

omit [Inhabited α] in
/-- A node that has seen everything is abreast of a recent leader. -/
theorem abreast_self (h : block ≤ s.getHeartbeat leader + period) :
    Abreast period block s.events.length (s.getHeartbeat leader) leader s := by
  refine ⟨h, le_refl _, ?_⟩
  rw [List.drop_length]
  exact le_refl _

theorem recent_kept (hblock : 0 < block) :
    KeptAt block fun s => block ≤ s.getHeartbeat leader + period :=
  fun x hnow _ h => (abreast_kept hblock x hnow _ (abreast_self h)).recent

omit [Inhabited α] in
/-- The next event is delivered: it has the record of the leader that the chain
goes on with, or leaves the one that was there. -/
theorem Abreast.deliver {e : Event α} (h : Abreast period block delivered record leader s)
    (he : s.events[delivered]? = some e) : delivered + 1 ≤ s.events.length ∧
      match beatOf leader e with
      | none => Abreast period block (delivered + 1) record leader s
      | some n => 0 < n ∧ Abreast period block (delivered + 1) n leader s := by
  obtain ⟨hlt, hget⟩ := List.getElem?_eq_some_iff.mp he
  have hspaced := h.spaced
  rw [List.drop_eq_getElem_cons hlt, hget, beats, List.filterMap_cons] at hspaced
  refine ⟨hlt, ?_⟩
  cases hbeat : beatOf leader e with
  | none =>
    rw [hbeat] at hspaced
    exact ⟨h.recent, hlt, hspaced⟩
  | some n =>
    rw [hbeat] at hspaced
    obtain ⟨hn, -, hrest⟩ := hspaced
    exact ⟨hn, h.recent, hlt, hrest⟩

end Abreast

/-! ### Runs -/

section Federation
variable [DecidableEq ι] {F : Operators ι α} {E : Serving ι α} {f f' : State ι α} {g : UInt32}
  {leader : α} {period delay : ℕ}

/-- The other nodes of the group of the leader. -/
def Rival (F : Operators ι α) (g : UInt32) (leader : α) (i : ι) : Prop :=
  (F.config i).group = g ∧ (F.config i).nodeKey ≠ leader

/-- What the node knows of the leader is abreast of the chain. -/
def InTouch (period : ℕ) (leader : α) (f : State ι α) (i : ι) : Prop :=
  ∃ record, (f.nodes i).orchestrator.heartbeats.getHeartbeat (.address leader) = some record ∧
    0 < record.blockNumber ∧
    Abreast period f.block (f.nodes i).delivered record.blockNumber leader f.pallet

/-- No block is made more than a period after the last heartbeat of the leader. A
rival that ticks waits for no heartbeat older than the delay, one that subscribes
has read the last heartbeat, and nobody is told to take the leadership. -/
def Timely (F : Operators ι α) (g : UInt32) (leader : α) (period delay : ℕ) (f : State ι α) :
    Act ι α → Prop
  | .extrinsic x => x.call ≠ .setLeader leader g ∧
    (x.call = .giveUpLeadership g → x.origin ≠ .signed leader)
  | .block => f.block + 1 ≤ f.pallet.getHeartbeat leader + period
  | .subscribe i => Rival F g leader i → ∃ record,
    (f.nodes i).orchestrator.heartbeats.getHeartbeat (.address leader) = some record ∧
      0 < record.blockNumber ∧ f.pallet.getHeartbeat leader ≤ record.blockNumber
  | .entry i e => Rival F g leader i → e ≠ .serviceStart "active" ∧
    (e = .tick → ∀ n ∈ beats leader (f.queue i), f.block ≤ n + delay)
  | _ => True

/-- The rivals are operated by their orchestrators and wait for long enough. -/
def Patient (F : Operators ι α) (g : UInt32) (leader : α) (period delay : ℕ) : Prop :=
  ∀ i, Rival F g leader i → (F.config i).serviceMode ≠ "active" ∧
    ((period + delay : ℕ) : ℤ) ≤ (F.config i).aliveTime

/-- The leader leads, its last heartbeat is recent and the rivals are in touch. -/
structure Steadfast (F : Operators ι α) (g : UInt32) (leader : α) (period : ℕ) (f : State ι α) :
    Prop where
  leads : f.pallet.leaders g = some leader
  started : 0 < f.block
  recent : f.block ≤ f.pallet.getHeartbeat leader + period
  touch : ∀ i, Rival F g leader i → (f.nodes i).phase = .subscribed → InTouch period leader f i

omit [Inhabited α] [DecidableEq ι] in
/-- A node in touch hears the leader, if the deliveries are not late. -/
theorem InTouch.heard {i : ι} (h : InTouch period leader f i)
    (hphase : (f.nodes i).phase = .subscribed)
    (hdelay : ∀ n ∈ beats leader (f.queue i), f.block ≤ n + delay) {aliveTime : ℤ}
    (halive : ((period + delay : ℕ) : ℤ) ≤ aliveTime) :
    Heard (f.nodes i).orchestrator.heartbeats aliveTime f.block leader := by
  obtain ⟨record, hrecord, hpos, habreast⟩ := h
  rw [queue_subscribed hphase] at hdelay
  have hrecent := habreast.spaced.recent habreast.recent hdelay
  exact ⟨record, hrecord, by omega, by omega⟩

theorem timely_undisturbed (hF : Patient F g leader period delay)
    (hf : Steadfast F g leader period f) {act : Act ι α} (h : Happens F E f f' act)
    (hact : Timely F g leader period delay f act) : Undisturbed F g leader f act := by
  cases act with
  | extrinsic x => exact hact
  | block | crash i id | restart i | subscribe i | deliver i => trivial
  | entry i e =>
    intro hgroup hkey hclaims
    obtain ⟨hactive, hdelay⟩ := hact ⟨hgroup, hkey⟩
    rcases hclaims with rfl | rfl
    · obtain ⟨out, s, w, hphase, -, -⟩ := h
      have hphase := tick_subscribed hphase
      obtain ⟨hmode, halive⟩ := hF i ⟨hgroup, hkey⟩
      have htouch := hf.touch i ⟨hgroup, hkey⟩ hphase
      exact ⟨rfl, hmode, htouch.heard hphase (hdelay rfl) halive⟩
    · exact absurd rfl hactive

/-- The last heartbeat of the account is recent. -/
structure Fresh (who : α) (period : ℕ) (f : State ι α) : Prop where
  started : 0 < f.block
  recent : f.block ≤ f.pallet.getHeartbeat who + period

theorem fresh_step (hE : E.Within F) (hf : Fresh leader period f) {act : Act ι α}
    (h : Happens F E f f' act)
    (hblock : act = .block → f.block + 1 ≤ f.pallet.getHeartbeat leader + period) :
    Fresh leader period f' := by
  by_cases hact : act = .block
  · have hnext := hblock hact
    subst hact
    cases h
    exact ⟨Nat.succ_pos _, hnext⟩
  · obtain ⟨hrecent, hnow⟩ := happens_kept hE (recent_kept hf.started) hf.recent hact h
    rw [← hnow] at hrecent
    exact ⟨hnow ▸ hf.started, hrecent⟩

theorem inTouch_deliver {i : ι} (hE : E.Within F) (hblock : 0 < f.block)
    (htouch : InTouch period leader f i) (h : Happens F E f f' (.deliver i)) :
    InTouch period leader f' i := by
  obtain ⟨record, hrecord, hpos, habreast⟩ := htouch
  have hkept := (happens_kept hE (abreast_kept hblock) habreast (by simp) h).1
  have hevents := (happens_advances hE h).events
  obtain ⟨event, out, s, w, -, hevent, hrun, rfl⟩ := h
  have hbeats : s.heartbeats = _ := wp_runs (wp_onEvent_heartbeats event _) hrun
  have hnext := (hkept.deliver ( getElem?_prefix hevents hevent)).2
  unfold InTouch
  rw [nodes_leave_self]
  dsimp only
  rw [hbeats]
  cases hbeat : beatOf leader event with
  | some n =>
    rw [hbeat] at hnext
    obtain ⟨g', st, rfl⟩ := beatOf_eq_some hbeat
    obtain ⟨name, hadded⟩ := (f.nodes i).orchestrator.heartbeats.getHeartbeat_addHeartbeat_self
      (.address leader) g'.toNat st.toNat n
    exact ⟨_, hadded, hnext.1, hnext.2⟩
  | none =>
    rw [hbeat] at hnext
    refine ⟨record, ?_, hpos, hnext⟩
    cases event with
    | newHeartbeat other g' st m =>
      have hne : Wallet.address leader ≠ .address other := by
        rintro heq
        cases heq
        rw [beatOf, if_pos rfl] at hbeat
        cases hbeat
      exact (Heartbeats.getHeartbeat_addHeartbeat_ne _ hne _ _ _).trans hrecord
    | newLeader other g' | giveUpLeader other g' => exact hrecord

/-- A subscribed node stays in touch with a recent account. -/
theorem inTouch_step {i : ι} (hE : E.Within F) (hf : Fresh leader period f)
    (htouch : (f.nodes i).phase = .subscribed → InTouch period leader f i) {act : Act ι α}
    (h : Happens F E f f' act)
    (hblock : act = .block → f.block + 1 ≤ f.pallet.getHeartbeat leader + period)
    (hsub : act = .subscribe i → ∃ record,
      (f.nodes i).orchestrator.heartbeats.getHeartbeat (.address leader) = some record ∧
        0 < record.blockNumber ∧ f.pallet.getHeartbeat leader ≤ record.blockNumber)
    (hphase : (f'.nodes i).phase = .subscribed) : InTouch period leader f' i := by
  by_cases habout : act.about i
  · cases act with
    | extrinsic x | block => exact habout.elim
    | crash j id =>
      cases h
      cases habout
      rw [nodes_setNode_self] at hphase
      obtain ⟨record, hrecord, hpos, habreast⟩ := htouch hphase
      unfold InTouch
      rw [nodes_setNode_self]
      exact ⟨record, hrecord, hpos, habreast⟩
    | restart j =>
      obtain ⟨connected, chain, pallet, out, s, w, -, -, rfl⟩ := h
      cases habout
      rw [nodes_leave_self] at hphase
      dsimp only at hphase
      split at hphase <;> cases hphase
    | subscribe j =>
      obtain ⟨-, rfl⟩ := h
      cases habout
      obtain ⟨record, hrecord, hpos, hle⟩ := hsub rfl
      unfold InTouch
      rw [nodes_setNode_self]
      refine ⟨record, hrecord, hpos, hf.recent, le_refl _, ?_⟩
      show Spaced _ _ (beats leader (f.pallet.events.drop f.pallet.events.length)) _
      rw [List.drop_length]
      exact hle
    | entry j e =>
      have hadmitted : e.admitted (f.nodes j).phase := by
        obtain ⟨out, s, w, hphase, -, -⟩ := h
        exact hphase
      cases habout
      have hsubscribed : (f.nodes i).phase = .subscribed := by
        obtain ⟨out, s, w, -, -, rfl⟩ := h
        rw [nodes_leave_self] at hphase
        exact hphase
      obtain ⟨record, hrecord, hpos, habreast⟩ := htouch hsubscribed
      have hkept := (happens_kept hE (abreast_kept hf.started) habreast (by simp) h).1
      obtain ⟨out, s, w, -, hrun, rfl⟩ := h
      have hsame : s.heartbeats = _ := wp_runs (wp_maintains (entry_heartbeats e _) _ rfl) hrun
      unfold InTouch
      rw [nodes_leave_self]
      dsimp only
      rw [hsame]
      exact ⟨record, hrecord, hpos, hkept⟩
    | deliver j =>
      cases habout
      have hsubscribed : (f.nodes i).phase = .subscribed := by
        obtain ⟨event, out, s, w, hphase, -, -, -⟩ := h
        exact hphase
      exact inTouch_deliver hE hf.started (htouch hsubscribed) h
  · have hsame := happens_elsewhere h habout
    rw [hsame] at hphase
    obtain ⟨record, hrecord, hpos, habreast⟩ := htouch hphase
    unfold InTouch
    rw [hsame]
    refine ⟨record, hrecord, hpos, ?_⟩
    by_cases hact : act = .block
    · have hnext := hblock hact
      subst hact
      cases h
      exact ⟨hnext, habreast.emitted, habreast.spaced⟩
    · obtain ⟨hkept, hnow⟩ := happens_kept hE (abreast_kept hf.started) habreast hact h
      rw [hnow]
      exact hkept

theorem steadfast_step (hE : E.Within F) (hF : Patient F g leader period delay)
    (hf : Steadfast F g leader period f) {act : Act ι α} (h : Happens F E f f' act)
    (hact : Timely F g leader period delay f act) : Steadfast F g leader period f' := by
  have hfresh : Fresh leader period f := ⟨hf.started, hf.recent⟩
  have hblock : act = .block → f.block + 1 ≤ f.pallet.getHeartbeat leader + period := by
    rintro rfl
    exact hact
  obtain ⟨hstarted, hrecent⟩ := fresh_step hE hfresh h hblock
  refine ⟨undisturbed_step hE hf.leads h (timely_undisturbed hF hf h hact), hstarted, hrecent, ?_⟩
  intro i hrival hphase
  apply inTouch_step hE hfresh (hf.touch i hrival) h hblock _ hphase
  rintro rfl
  exact hact hrival

/-- A leader whose heartbeats are timely keeps the leadership, in every run and
whatever the chain clients of the nodes answer. -/
theorem timely_leader_stays {acts : List (Act ι α)} (hF : Patient F g leader period delay)
    (hf : Steadfast F g leader period f)
    (h : Course (Happens F F.serving) (Timely F g leader period delay) f acts f') :
    Steadfast F g leader period f' := by
  apply h.keeps (I := Steadfast F g leader period) _ hf
  intro s s' act hs hact hadmits
  exact steadfast_step (fun _ _ _ _ _ hc => hc) hF hs hact hadmits

end Federation

theorem patient_pair : Patient pair 1 1 60 40 := by
  intro i _
  cases i <;> decide

theorem leading_beats : beats 1 (leading.queue true) = [] := by decide +kernel

theorem leading_steadfast : Steadfast pair 1 1 60 leading := by
  obtain ⟨record, hrecord, hblock⟩ : ∃ record,
      (leading.nodes true).orchestrator.heartbeats.getHeartbeat (.address 1) = some record ∧
        record.blockNumber = 1 := ⟨⟨"archipel-NODE-1", 1, 2, 1⟩, by decide +kernel, rfl⟩
  have hspaced : Spaced 60 1 (beats 1 (leading.queue true)) (leading.pallet.getHeartbeat 1) := by
    rw [leading_beats]
    show leading.pallet.getHeartbeat 1 ≤ 1
    decide +kernel
  have hrecent : leading.block ≤ leading.pallet.getHeartbeat 1 + 60 := by decide +kernel
  refine ⟨by decide +kernel, by decide +kernel, hrecent, fun i hrival _ => ?_⟩
  cases i with
  | false => exact absurd rfl hrival.2
  | true =>
    refine ⟨record, hrecord, by omega, hrecent, by decide +kernel, ?_⟩
    rw [hblock]
    exact hspaced

/-- A block is made and the other node ticks. -/
theorem timely_leader_stays_leading : ∃ f', Course (Happens pair pair.serving)
    (Timely pair 1 1 60 40) leading [.block, .entry true .tick] f' ∧
    Steadfast pair 1 1 60 f' := by
  have hplayed : ∃ f', Happens pair pair.serving { leading with block := leading.block + 1 } f'
      (.entry true .tick) := played_entry (D := answer true (pair.config true) (pair.service true))
    (fun _ _ _ _ => answer_serve) (by decide +kernel) (by decide +kernel)
  obtain ⟨f', hentry⟩ := hplayed
  have hblock : leading.block + 1 ≤ leading.pallet.getHeartbeat 1 + 60 := by decide +kernel
  have htick : Timely pair 1 1 60 40 { leading with block := leading.block + 1 }
      (.entry true .tick) := by
    intro _
    refine ⟨by decide, fun _ n hn => ?_⟩
    have hqueue : n ∈ beats 1 (leading.queue true) := hn
    rw [leading_beats] at hqueue
    cases hqueue
  have hcourse : Course (Happens pair pair.serving) (Timely pair 1 1 60 40) leading
      [.block, .entry true .tick] f' := .cons rfl hblock (.cons hentry htick (.nil f'))
  exact ⟨f', hcourse, timely_leader_stays patient_pair leading_steadfast hcourse⟩

end Archipel.Federation
