import Archipel.Async.Nested
import Archipel.Orchestrator.Rules
import Archipel.Pallet.Record
import Mathlib.Order.Monotone.Basic
import Mathlib.Logic.Relation

/-!
# The heartbeat map mirrors the chain

`fillHeartbeatsFromChain` reads the wallets one after the other while the chain
moves on; after it the events of the chain are delivered in order and late. A
position counts the events of the chain, and every local record shows the last
heartbeat before some position, which only moves forward.
-/

namespace Archipel.Orchestrator

open Relation Async Pallet Runs

variable {α : Type} [DecidableEq α]

/-! ### The last heartbeat of a wallet -/

def beatOf (wallet : Wallet α) : Event α → Option (UInt32 × UInt32 × ℕ)
  | .newHeartbeat who groupId nodeStatus now =>
    if .address who = wallet then some (groupId, nodeStatus, now) else none
  | _ => none

def lastBeat (events : List (Event α)) (wallet : Wallet α) : Option (UInt32 × UInt32 × ℕ) :=
  latest (beatOf wallet) events

theorem lastBeat_concat (events : List (Event α)) (e : Event α) (wallet : Wallet α) :
    lastBeat (events ++ [e]) wallet = (beatOf wallet e).or (lastBeat events wallet) :=
  latest_concat ..

def blockOf (beat : Option (UInt32 × UInt32 × ℕ)) : ℕ := (beat.map fun b => b.2.2).getD 0

/-- The block of the last heartbeat before the position. -/
def blockAt (events : List (Event α)) (wallet : Wallet α) (position : ℕ) : ℕ :=
  blockOf (lastBeat (events.take position) wallet)

/-! ### The events of a chain whose blocks do not go back -/

theorem replay_lastBeat (events : List (Event α)) (who : α) :
    (View.replay events).groups who = (lastBeat events (.address who)).map (fun b => b.1) ∧
    (View.replay events).nodesStatus who =
      (lastBeat events (.address who)).map (fun b => b.2.1) ∧
    (View.replay events).heartbeats who =
      (lastBeat events (.address who)).map (fun b => b.2.2) := by
  induction events using List.reverseRecOn with
  | nil => exact ⟨rfl, rfl, rfl⟩
  | append_singleton events e ih =>
    obtain ⟨hg, hs, hb⟩ := ih
    rw [lastBeat_concat, View.replay, List.foldl_append]
    cases e with
    | newHeartbeat other g st now =>
      by_cases hwho : who = other
      · subst hwho
        simp [View.apply, beatOf]
      · have hne : ¬ other = who := fun h => hwho h.symm
        simpa [View.apply, beatOf, hne, Function.update_of_ne hwho] using ⟨hg, hs, hb⟩
    | newLeader other g => exact ⟨hg, hs, hb⟩
    | giveUpLeader other g => exact ⟨hg, hs, hb⟩

/-- The blocks of the heartbeats do not go back and have not passed `block`. -/
structure Timely (events : List (Event α)) (block : ℕ) : Prop where
  mono : ∀ wallet, Monotone (blockAt events wallet)
  bound : ∀ wallet, blockOf (lastBeat events wallet) ≤ block

theorem blockAt_length (events : List (Event α)) (wallet : Wallet α) :
    blockAt events wallet events.length = blockOf (lastBeat events wallet) := by
  rw [blockAt, List.take_length]

theorem blockAt_append {events : List (Event α)} {n : ℕ} (hn : n ≤ events.length)
    (l : List (Event α)) (wallet : Wallet α) :
    blockAt (events ++ l) wallet n = blockAt events wallet n := by
  rw [blockAt, blockAt, List.take_append_of_le_length hn]

theorem timely_concat {events : List (Event α)} {block now : ℕ} (h : Timely events block)
    (hnow : block ≤ now) (e : Event α) (he : ∀ wallet b, beatOf wallet e = some b → b.2.2 = now) :
    Timely (events ++ [e]) now := by
  have hlast : ∀ wallet, blockOf (lastBeat events wallet) ≤
      blockOf (lastBeat (events ++ [e]) wallet) ∧
      blockOf (lastBeat (events ++ [e]) wallet) ≤ now := by
    intro wallet
    have hbound := h.bound wallet
    rw [lastBeat_concat]
    cases hb : beatOf wallet e with
    | none => exact ⟨le_rfl, by simpa using hbound.trans hnow⟩
    | some b =>
      have hval := he wallet b hb
      simp only [Option.some_or, blockOf, Option.map_some, Option.getD_some, hval] at hbound ⊢
      exact ⟨hbound.trans hnow, le_rfl⟩
  refine ⟨fun wallet n m hnm => ?_, fun wallet => (hlast wallet).2⟩
  by_cases hm : m ≤ events.length
  · rw [blockAt_append hm, blockAt_append (hnm.trans hm)]
    exact h.mono wallet hnm
  · have hfull : blockAt (events ++ [e]) wallet m = blockOf (lastBeat (events ++ [e]) wallet) := by
      rw [blockAt, List.take_of_length_le (by simp; omega)]
    by_cases hn : n ≤ events.length
    · have hle := h.mono wallet hn
      rw [blockAt_length] at hle
      rw [hfull, blockAt_append hn]
      exact hle.trans (hlast wallet).1
    · rw [hfull, blockAt, List.take_of_length_le (by simp; omega)]

theorem timely_later {events : List (Event α)} {block now : ℕ} (h : Timely events block)
    (hnow : block ≤ now) : Timely events now :=
  ⟨h.mono, fun wallet => (h.bound wallet).trans hnow⟩

variable [Inhabited α]

theorem execute_timely (x : Extrinsic α) {s : Storage α} {block : ℕ} (h : Timely s.events block)
    (hnow : block ≤ x.now) : Timely (x.execute s).2.events x.now ∧
      s.events <+: (x.execute s).2.events := by
  rcases execute_cases x s with ⟨e, he⟩ | ⟨who, g, st, -, -, he⟩ | ⟨who, old, g, -, -, he, -⟩ |
    ⟨who, g, -, -, he, -⟩
  · rw [he]
    exact ⟨timely_later h hnow, List.prefix_rfl⟩
  · rw [he]
    refine ⟨timely_concat h hnow (.newHeartbeat who g st x.now) ?_, List.prefix_append ..⟩
    intro wallet b hb
    simp only [beatOf, Option.ite_none_right_eq_some, Option.some.injEq] at hb
    rw [← hb.2]
  · rw [he]
    exact ⟨timely_concat h hnow (.newLeader who g) (by simp [beatOf]), List.prefix_append ..⟩
  · rw [he]
    exact ⟨timely_concat h hnow (.giveUpLeader who g) (by simp [beatOf]), List.prefix_append ..⟩

/-! ### The chain, the fill and the deliveries -/

/-- The chain with the block of its last call, the fields of the node, what is
left of its fill, the answer that the fill has not recorded yet with the
position of its read, the positions of the recorded reads, the position at which
the subscription started and the position up to which events were delivered. -/
structure Mirror (α : Type) where
  chain : Storage α
  block : ℕ
  fields : State α
  fill : Method α Unit
  answered : Option (Wallet α × ℕ)
  readAt : Wallet α → Option ℕ
  start : Option ℕ
  seen : ℕ

namespace Mirror

def chainBlock (s : Storage α) : Wallet α → ℕ
  | .address who => s.getHeartbeat who
  | .text _ => 0

def boot (config : Config α) : Mirror α where
  chain := Storage.empty
  block := 0
  fields := State.init config
  fill := fillHeartbeatsFromChain config.nodesWallets
  answered := none
  readAt := fun _ => none
  start := none
  seen := 0

def localBeat (m : Mirror α) (wallet : Wallet α) : Option Heartbeat :=
  m.fields.heartbeats.getHeartbeat wallet

def note (readAt : Wallet α → Option ℕ) : Option (Wallet α × ℕ) → Wallet α → Option ℕ
  | some (wallet, n) => Function.update readAt wallet (some n)
  | none => readAt

/-- `other` is what the rest of the program does to its other fields. -/
inductive Step (config : Config α) : Mirror α → Mirror α → Prop
  | execute {m : Mirror α} (x : Extrinsic α) (hnow : m.block ≤ x.now) (hpos : 0 < x.now) :
      Step config m { m with chain := (x.execute m.chain).2, block := x.now }
  | read {m : Mirror α} {wallet : Wallet α} {k : Except String ℕ → Method α Unit}
      (h : m.fill = .await (.getHeartbeat wallet) k) :
      Step config m { m with
        fill := k (.ok (chainBlock m.chain wallet))
        answered := some (wallet, m.chain.events.length) }
  | record {m : Mirror α} (h : m.fill.suspended = false) :
      Step config m { m with
        fields := (m.fill.turn m.fields).2
        fill := (m.fill.turn m.fields).1
        answered := none
        readAt := note m.readAt m.answered }
  | subscribe {m : Mirror α} (hfill : m.fill.ended = true) (hstart : m.start = none) :
      Step config m { m with
        start := some m.chain.events.length
        seen := m.chain.events.length }
  | deliver {m : Mirror α} {n : ℕ} {e : Event α} (hstart : m.start = some n)
      (he : m.chain.events[m.seen]? = some e) :
      Step config m { m with
        fields := ((onEvent config e).turn m.fields).2
        seen := m.seen + 1 }
  | other {m : Mirror α} {fields : State α} (h : fields.heartbeats = m.fields.heartbeats) :
      Step config m { m with fields := fields }

def Reachable (config : Config α) (m : Mirror α) : Prop :=
  ReflTransGen (Step config) (boot config) m

/-- The event at the position has been delivered. -/
def Delivered (m : Mirror α) (i : ℕ) : Prop := ∃ n, m.start = some n ∧ n ≤ i ∧ i < m.seen

/-! ### What the fill and the deliveries write -/

def recording (wallet : Wallet α) (block : ℕ) (wallets : List (Wallet α)) : Method α Unit := do
  modify fun s => { s with heartbeats := s.heartbeats.addHeartbeat wallet 0 0 block }
  fillHeartbeatsFromChain wallets

omit [Inhabited α] in
theorem fill_suspended (wallets : List (Wallet α)) :
    (fillHeartbeatsFromChain wallets).suspended = true := by
  cases wallets <;> rfl

omit [Inhabited α] in
theorem fill_turn (wallets : List (Wallet α)) (s : State α) :
    (fillHeartbeatsFromChain wallets).turn s = (fillHeartbeatsFromChain wallets, s) := by
  cases wallets <;> rfl

omit [Inhabited α] in
theorem recording_turn (wallet : Wallet α) (block : ℕ) (wallets : List (Wallet α)) (s : State α) :
    (recording wallet block wallets).turn s = (fillHeartbeatsFromChain wallets,
      { s with heartbeats := s.heartbeats.addHeartbeat wallet 0 0 block }) :=
  fill_turn wallets _

omit [Inhabited α] in
theorem fill_reads {wallets : List (Wallet α)} {wallet : Wallet α}
    {k : Except String ℕ → Method α Unit}
    (h : fillHeartbeatsFromChain wallets = .await (.getHeartbeat wallet) k) (block : ℕ) :
    ∃ rest, wallets = wallet :: rest ∧ k (.ok block) = recording wallet block rest := by
  cases wallets with
  | nil => cases h
  | cons w rest =>
    cases h
    exact ⟨rest, rfl, rfl⟩

omit [Inhabited α] in
theorem maintains_onEvent {I : State α → Prop} {config : Config α} {e : Event α}
    (he : ∀ wallet, beatOf wallet e = none) (hI : ∀ s mode, I s → I (s.inMode mode)) :
    Maintains (A := api α) I (onEvent config e) := by
  cases e with
  | newHeartbeat who g st now =>
    have hself := he (.address who)
    simp [beatOf] at hself
  | giveUpLeader who g => trivial
  | newLeader who g =>
    show Maintains _ (if _ then _ else _)
    split
    · exact maintains_bind (maintains_serviceStart .passive fun s hs => hI s .passive hs)
        fun _ => trivial
    · trivial

omit [Inhabited α] in
theorem onEvent_heartbeats {config : Config α} {e : Event α}
    (he : ∀ wallet, beatOf wallet e = none) (s : State α) :
    ((onEvent config e).turn s).2.heartbeats = s.heartbeats :=
  (maintains_turn (I := fun t : State α => t.heartbeats = s.heartbeats)
    (maintains_onEvent he fun _ _ h => h) rfl).2

/-! ### What the local records show -/

/-- The record of the wallet is the one read by the fill, with no heartbeat of
the wallet delivered since, or it is the last one delivered. -/
def Shows (m : Mirror α) (wallet : Wallet α) (record : Heartbeat) : Prop :=
  (∃ n, m.readAt wallet = some n ∧ record.blockNumber = blockAt m.chain.events wallet n ∧
    ∀ start, m.start = some start → Quiet (beatOf wallet) m.chain.events start m.seen) ∨
  (∃ start g st, m.start = some start ∧
    lastBeat (m.chain.events.take m.seen) wallet = some (g, st, record.blockNumber) ∧
    record.group = g.toNat ∧ record.nodeStatus = st.toNat)

/-- What is left of the fill: it waits for its next read, or has the answer of a
read to record. -/
def Filling (config : Config α) (m : Mirror α) : Prop :=
  (m.answered = none ∧ ∃ wallets, m.fill = fillHeartbeatsFromChain wallets ∧
    ∀ w ∈ config.nodesWallets, (m.readAt w).isSome ∨ w ∈ wallets) ∨
  (∃ wallet n wallets, m.answered = some (wallet, n) ∧ n ≤ m.chain.events.length ∧
    (∀ n', m.readAt wallet = some n' → n' ≤ n) ∧
    m.fill = recording wallet (blockAt m.chain.events wallet n) wallets ∧
    ∀ w ∈ config.nodesWallets, (m.readAt w).isSome ∨ w ∈ wallet :: wallets)

structure Sound (config : Config α) (m : Mirror α) : Prop where
  replay : View.replay m.chain.events = m.chain.view
  timely : Timely m.chain.events m.block
  filling : m.Filling config
  started : ∀ start, m.start = some start → m.fill.ended = true ∧ start ≤ m.seen ∧
    m.seen ≤ m.chain.events.length
  positions : ∀ wallet n, m.readAt wallet = some n → n ≤ m.chain.events.length ∧
    (∀ start, m.start = some start → n ≤ start) ∧ (m.localBeat wallet).isSome
  shows : ∀ wallet record, m.localBeat wallet = some record → m.Shows wallet record

omit [Inhabited α] in
theorem chainBlock_eq {s : Storage α} (h : View.replay s.events = s.view) (wallet : Wallet α) :
    chainBlock s wallet = blockOf (lastBeat s.events wallet) := by
  cases wallet with
  | address who =>
    have hbeat := (replay_lastBeat s.events who).2.2
    rw [h] at hbeat
    have hview : s.view.heartbeats who = s.heartbeats who := rfl
    rw [chainBlock, Storage.getHeartbeat, blockOf, ← hbeat, hview]
  | text t =>
    have hnone : lastBeat s.events (.text t) = none := by
      unfold lastBeat latest
      rw [List.findSome?_eq_none_iff]
      intro e _
      cases e <;> simp [beatOf]
    rw [hnone]
    rfl

omit [Inhabited α] in
theorem quiet_prefix {events events' : List (Event α)} (h : events <+: events')
    {wallet : Wallet α} {n k : ℕ} (hk : k ≤ events.length)
    (hq : Quiet (beatOf wallet) events n k) : Quiet (beatOf wallet) events' n k := by
  obtain ⟨l, rfl⟩ := h
  intro i e hn hi he
  rw [List.getElem?_append_left (by omega)] at he
  exact hq i e hn hi he

omit [Inhabited α] in
theorem blockAt_append_le {events events' : List (Event α)} (h : events <+: events') {n : ℕ}
    (hn : n ≤ events.length) (wallet : Wallet α) :
    blockAt events' wallet n = blockAt events wallet n := by
  obtain ⟨l, rfl⟩ := h
  exact blockAt_append hn l wallet

omit [Inhabited α] in
theorem boot_sound (config : Config α) : (boot config).Sound config where
  replay := rfl
  timely := ⟨fun _ _ _ _ => le_of_eq (by simp [boot, Storage.empty, blockAt]),
    fun _ => le_rfl⟩
  filling := .inl ⟨rfl, _, rfl, fun _ hw => .inr hw⟩
  started := by
    intro start h
    cases h
  positions := by
    intro wallet n h
    cases h
  shows := by
    intro wallet record h
    cases h

omit [Inhabited α] in
/-- The position up to which a record shows the heartbeats. -/
theorem Sound.shown {config : Config α} {m : Mirror α} (hm : m.Sound config)
    {wallet : Wallet α} {record : Heartbeat} (h : m.localBeat wallet = some record) :
    ∃ n, n ≤ m.chain.events.length ∧
      record.blockNumber = blockAt m.chain.events wallet n ∧
      (∀ start, m.start = some start → n ≤ m.seen) ∧
      (m.start = none → m.readAt wallet = some n) := by
  rcases hm.shows wallet record h with ⟨n, hn, hblock, -⟩ | ⟨start, g, st, hs, hlast, -, -⟩
  · obtain ⟨hle, hstart, -⟩ := hm.positions wallet n hn
    refine ⟨n, hle, hblock, fun start hs => ?_, fun _ => hn⟩
    have h1 := hstart start hs
    have h2 := (hm.started start hs).2.1
    omega
  · refine ⟨m.seen, (hm.started start hs).2.2, ?_, fun _ _ => le_rfl, fun hnone => ?_⟩
    · rw [blockAt, hlast]
      rfl
    · rw [hs] at hnone
      cases hnone

omit [Inhabited α] in
theorem Sound.record_le {config : Config α} {m : Mirror α} (hm : m.Sound config)
    {wallet : Wallet α} {record : Heartbeat} (h : m.localBeat wallet = some record) :
    record.blockNumber ≤ chainBlock m.chain wallet := by
  obtain ⟨n, hn, hblock, -⟩ := hm.shown h
  have hmono := hm.timely.mono wallet hn
  rw [blockAt_length] at hmono
  rw [hblock, chainBlock_eq hm.replay]
  exact hmono

/-- No local record of `m` is lost or replaced by an older one in `m'`. -/
def NoOlder (m m' : Mirror α) : Prop := ∀ wallet record, m.localBeat wallet = some record →
  ∃ record', m'.localBeat wallet = some record' ∧ record.blockNumber ≤ record'.blockNumber

omit [Inhabited α] in
theorem noOlder_same {m m' : Mirror α} (h : ∀ wallet, m'.localBeat wallet = m.localBeat wallet) :
    m.NoOlder m' := by
  intro wallet record hrecord
  exact ⟨record, (h wallet).trans hrecord, le_rfl⟩

omit [Inhabited α] in
theorem NoOlder.trans {m m' m'' : Mirror α} (h : m.NoOlder m') (h' : m'.NoOlder m'') :
    m.NoOlder m'' := by
  intro wallet record hrecord
  obtain ⟨r, hr, hle⟩ := h wallet record hrecord
  obtain ⟨r', hr', hle'⟩ := h' wallet r hr
  exact ⟨r', hr', hle.trans hle'⟩

theorem sound_execute {config : Config α} {m : Mirror α} (hm : m.Sound config)
    (x : Extrinsic α) (hnow : m.block ≤ x.now) :
    Sound config { m with chain := (x.execute m.chain).2, block := x.now } := by
  obtain ⟨htimely, hprefix⟩ := execute_timely x hm.timely hnow
  have hlen := hprefix.length_le
  refine ⟨execute_journal.replay hm.replay [x], htimely, ?_, ?_, ?_, ?_⟩
  · rcases hm.filling with h | ⟨wallet, n, wallets, ha, hn, hread, hfill, hall⟩
    · exact .inl h
    · refine .inr ⟨wallet, n, wallets, ha, hn.trans hlen, hread, ?_, hall⟩
      rw [blockAt_append_le hprefix hn]
      exact hfill
  · intro start h
    obtain ⟨hf, hs, hl⟩ := hm.started start h
    exact ⟨hf, hs, hl.trans hlen⟩
  · intro wallet n h
    obtain ⟨hl, hs, hlocal⟩ := hm.positions wallet n h
    exact ⟨hl.trans hlen, hs, hlocal⟩
  · intro wallet record h
    rcases hm.shows wallet record h with ⟨n, hn, hblock, hq⟩ | ⟨start, g, st, hs, hlast, hrest⟩
    · refine .inl ⟨n, hn, ?_, fun start hs => quiet_prefix hprefix (hm.started start hs).2.2
        (hq start hs)⟩
      rw [hblock, blockAt_append_le hprefix (hm.positions wallet n hn).1]
    · refine .inr ⟨start, g, st, hs, ?_, hrest⟩
      obtain ⟨l, hl⟩ := hprefix
      rw [← hl, List.take_append_of_le_length (hm.started start hs).2.2]
      exact hlast

omit [Inhabited α] in
theorem Sound.not_started {config : Config α} {m : Mirror α} (hm : m.Sound config)
    (h : m.fill.ended = false) : m.start = none := by
  cases hs : m.start with
  | none => rfl
  | some start =>
    have hend := (hm.started start hs).1
    rw [h] at hend
    cases hend

omit [Inhabited α] in
theorem sound_read {config : Config α} {m : Mirror α} (hm : m.Sound config)
    {wallet : Wallet α} {k : Except String ℕ → Method α Unit}
    (h : m.fill = .await (.getHeartbeat wallet) k) :
    Sound config { m with
      fill := k (.ok (chainBlock m.chain wallet))
      answered := some (wallet, m.chain.events.length) } := by
  have hstart : m.start = none := hm.not_started (by rw [h]; rfl)
  refine ⟨hm.replay, hm.timely, .inr ?_, ?_, hm.positions, hm.shows⟩
  · rcases hm.filling with ⟨-, wallets, hfill, hall⟩ | ⟨w, n, wallets, -, -, -, hfill, -⟩
    · obtain ⟨rest, hwallets, hrest⟩ :=
        fill_reads (hfill.symm.trans h) (chainBlock m.chain wallet)
      refine ⟨wallet, m.chain.events.length, rest, rfl, le_rfl,
        fun n hn => (hm.positions wallet n hn).1, ?_, hwallets ▸ hall⟩
      rw [blockAt_length, ← chainBlock_eq hm.replay]
      exact hrest
    · cases hfill.symm.trans h
  · intro start hs
    rw [hstart] at hs
    cases hs

omit [Inhabited α] in
theorem localBeat_record {m : Mirror α} (wallet key : Wallet α) (block : ℕ) :
    (∃ name, key = wallet ∧ (m.fields.heartbeats.addHeartbeat wallet 0 0 block).getHeartbeat key =
      some ⟨name, 0, 0, block⟩) ∨
    (key ≠ wallet ∧ (m.fields.heartbeats.addHeartbeat wallet 0 0 block).getHeartbeat key =
      m.localBeat key) := by
  by_cases hkey : key = wallet
  · obtain ⟨name, hname⟩ := m.fields.heartbeats.getHeartbeat_addHeartbeat_self wallet 0 0 block
    exact .inl ⟨name, hkey, hkey ▸ hname⟩
  · exact .inr ⟨hkey, Heartbeats.getHeartbeat_addHeartbeat_ne _ hkey 0 0 block⟩

omit [Inhabited α] in
/-- The fill moves by itself only to record the answer of a read. -/
theorem Sound.recorded {config : Config α} {m : Mirror α} (hm : m.Sound config)
    (h : m.fill.suspended = false) : m.start = none ∧ ∃ wallet n wallets,
      m.answered = some (wallet, n) ∧ n ≤ m.chain.events.length ∧
      (∀ n', m.readAt wallet = some n' → n' ≤ n) ∧
      m.fill = recording wallet (blockAt m.chain.events wallet n) wallets ∧
      ∀ w ∈ config.nodesWallets, (m.readAt w).isSome ∨ w ∈ wallet :: wallets := by
  rcases hm.filling with ⟨-, wallets, hfill, -⟩ | ⟨wallet, n, wallets, ha, hn, hread, hfill, hall⟩
  · rw [hfill, fill_suspended] at h
    cases h
  · have hstart : m.start = none := by
      apply hm.not_started
      rw [hfill]
      rfl
    exact ⟨hstart, wallet, n, wallets, ha, hn, hread, hfill, hall⟩

omit [Inhabited α] in
theorem record_noOlder {config : Config α} {m : Mirror α} (hm : m.Sound config)
    (h : m.fill.suspended = false) : m.NoOlder { m with
      fields := (m.fill.turn m.fields).2
      fill := (m.fill.turn m.fields).1
      answered := none
      readAt := note m.readAt m.answered } := by
  obtain ⟨hstart, w, n, wallets, ha, hn, hread, hfill, hall⟩ := hm.recorded h
  intro wallet record hrecord
  rw [hfill, recording_turn, ha]
  rcases localBeat_record (m := m) w wallet (blockAt m.chain.events w n) with
    ⟨name, heq, hl⟩ | ⟨hne, hl⟩
  · refine ⟨_, hl, ?_⟩
    obtain ⟨k, -, hblock, -, hreadAt⟩ := hm.shown hrecord
    have hk : k ≤ n := hread k (heq ▸ hreadAt hstart)
    rw [hblock, heq]
    exact hm.timely.mono w hk
  · exact ⟨record, hl.trans hrecord, le_rfl⟩

omit [Inhabited α] in
theorem sound_record {config : Config α} {m : Mirror α} (hm : m.Sound config)
    (h : m.fill.suspended = false) : Sound config { m with
      fields := (m.fill.turn m.fields).2
      fill := (m.fill.turn m.fields).1
      answered := none
      readAt := note m.readAt m.answered } := by
  obtain ⟨hstart, w, n, wallets, ha, hn, hread, hfill, hall⟩ := hm.recorded h
  have hlocal := fun wallet =>
    localBeat_record (m := m) w wallet (blockAt m.chain.events w n)
  rw [hfill, recording_turn, ha]
  have hnoted : ∀ w' ∈ config.nodesWallets,
      (note m.readAt (some (w, n)) w').isSome ∨ w' ∈ wallets := by
    intro w' hw'
    by_cases heq : w' = w
    · exact .inl (by simp [note, heq])
    · rcases hall w' hw' with hsome | hmem
      · exact .inl (by simpa [note, Function.update_of_ne heq] using hsome)
      · exact .inr ((List.mem_cons.mp hmem).resolve_left heq)
  refine ⟨hm.replay, hm.timely, .inl ⟨rfl, wallets, rfl, hnoted⟩, ?_, ?_, ?_⟩
  · intro start hs
    rw [hstart] at hs
    cases hs
  · intro wallet k hk
    simp only [note] at hk
    rcases hlocal wallet with ⟨name, heq, hl⟩ | ⟨hne, hl⟩
    · rw [heq, Function.update_self] at hk
      cases hk
      refine ⟨hn, fun start hs => ?_, by rw [localBeat, hl]; rfl⟩
      rw [hstart] at hs
      cases hs
    · rw [Function.update_of_ne hne] at hk
      obtain ⟨h1, h2, h3⟩ := hm.positions wallet k hk
      exact ⟨h1, h2, by rw [localBeat, hl]; exact h3⟩
  · intro wallet record hrecord
    rw [localBeat] at hrecord
    rcases hlocal wallet with ⟨name, heq, hl⟩ | ⟨hne, hl⟩
    · rw [hl] at hrecord
      cases hrecord
      refine .inl ⟨n, by simp [note, heq], by rw [heq], fun start hs => ?_⟩
      rw [hstart] at hs
      cases hs
    · rw [hl] at hrecord
      rcases hm.shows wallet record hrecord with ⟨k, hk, hrest⟩ | ⟨start, g, st, hs, -⟩
      · exact .inl ⟨k, by simpa [note, Function.update_of_ne hne] using hk, hrest⟩
      · rw [hstart] at hs
        cases hs

omit [Inhabited α] in
theorem sound_subscribe {config : Config α} {m : Mirror α} (hm : m.Sound config)
    (hfill : m.fill.ended = true) (hstart : m.start = none) : Sound config { m with
      start := some m.chain.events.length
      seen := m.chain.events.length } := by
  refine ⟨hm.replay, hm.timely, hm.filling, ?_, ?_, ?_⟩
  · intro start hs
    cases hs
    exact ⟨hfill, le_rfl, le_rfl⟩
  · intro wallet n hn
    obtain ⟨h1, -, h3⟩ := hm.positions wallet n hn
    refine ⟨h1, fun start hs => ?_, h3⟩
    cases hs
    exact h1
  · intro wallet record h
    rcases hm.shows wallet record h with ⟨n, hn, hblock, -⟩ | ⟨start, g, st, hs, -⟩
    · refine .inl ⟨n, hn, hblock, fun start hs i e h1 h2 => ?_⟩
      cases hs
      have hlt : i < m.chain.events.length := h2
      omega
    · rw [hstart] at hs
      cases hs

omit [Inhabited α] in
theorem Shows.pass {m : Mirror α} {wallet : Wallet α} {record : Heartbeat} {e : Event α}
    (h : m.Shows wallet record) (he : m.chain.events[m.seen]? = some e)
    (hbeat : beatOf wallet e = none) (fields : State α) :
    Shows { m with fields := fields, seen := m.seen + 1 } wallet record := by
  rcases h with ⟨n, hn, hblock, hq⟩ | ⟨start, g, st, hs, hlast, hrest⟩
  · refine .inl ⟨n, hn, hblock, fun start hs i e' h1 h2 he' => ?_⟩
    by_cases hi : i = m.seen
    · rw [hi, he] at he'
      cases he'
      exact hbeat
    · have hlt : i < m.seen + 1 := h2
      exact hq start hs i e' h1 (by omega) he'
  · refine .inr ⟨start, g, st, hs, ?_, hrest⟩
    show lastBeat (m.chain.events.take (m.seen + 1)) wallet = _
    rw [lastBeat, latest_succ _ he, hbeat, Option.none_or]
    exact hlast

omit [Inhabited α] in
/-- What the delivery of an event does to the record of a wallet. -/
theorem deliver_local (config : Config α) (m : Mirror α) (e : Event α) (wallet : Wallet α) :
    (beatOf wallet e = none ∧
      ((onEvent config e).turn m.fields).2.heartbeats.getHeartbeat wallet = m.localBeat wallet) ∨
    (∃ name g st now, beatOf wallet e = some (g, st, now) ∧
      ((onEvent config e).turn m.fields).2.heartbeats.getHeartbeat wallet =
        some ⟨name, g.toNat, st.toNat, now⟩) := by
  cases e with
  | newHeartbeat who g st now =>
    by_cases hw : .address who = wallet
    · obtain ⟨name, hname⟩ := m.fields.heartbeats.getHeartbeat_addHeartbeat_self
        (.address who) g.toNat st.toNat now
      exact .inr ⟨name, g, st, now, by rw [beatOf, if_pos hw], hw ▸ hname⟩
    · have hne : wallet ≠ .address who := fun h => hw h.symm
      exact .inl ⟨by rw [beatOf, if_neg hw], Heartbeats.getHeartbeat_addHeartbeat_ne _ hne ..⟩
  | newLeader who g =>
    refine .inl ⟨rfl, ?_⟩
    rw [onEvent_heartbeats fun _ => rfl]
    rfl
  | giveUpLeader who g =>
    refine .inl ⟨rfl, ?_⟩
    rw [onEvent_heartbeats fun _ => rfl]
    rfl

omit [Inhabited α] in
theorem deliver_noOlder {config : Config α} {m : Mirror α} (hm : m.Sound config) {n : ℕ}
    {e : Event α} (hstart : m.start = some n) (he : m.chain.events[m.seen]? = some e) :
    m.NoOlder { m with
      fields := ((onEvent config e).turn m.fields).2
      seen := m.seen + 1 } := by
  intro wallet record hrecord
  rcases deliver_local config m e wallet with ⟨-, hl⟩ | ⟨name, g, st, now, hbeat, hl⟩
  · exact ⟨record, hl.trans hrecord, le_rfl⟩
  · refine ⟨_, hl, ?_⟩
    obtain ⟨k, -, hblock, hseen, -⟩ := hm.shown hrecord
    have hmono := hm.timely.mono wallet ((hseen n hstart).trans (Nat.le_succ _))
    have hnow : blockAt m.chain.events wallet (m.seen + 1) = now := by
      rw [blockAt, lastBeat, latest_succ _ he, hbeat]
      rfl
    rw [hnow] at hmono
    rw [hblock]
    exact hmono

omit [Inhabited α] in
theorem sound_deliver {config : Config α} {m : Mirror α} (hm : m.Sound config) {n : ℕ}
    {e : Event α} (hstart : m.start = some n) (he : m.chain.events[m.seen]? = some e) :
    Sound config { m with
      fields := ((onEvent config e).turn m.fields).2
      seen := m.seen + 1 } := by
  have hlocal := deliver_local config m e
  have hlt : m.seen < m.chain.events.length := (List.getElem?_eq_some_iff.mp he).1
  refine ⟨hm.replay, hm.timely, hm.filling, ?_, ?_, ?_⟩
  · intro start hs
    obtain ⟨h1, h2, -⟩ := hm.started start hs
    exact ⟨h1, h2.trans (Nat.le_succ _), hlt⟩
  · intro wallet k hk
    obtain ⟨h1, h2, h3⟩ := hm.positions wallet k hk
    refine ⟨h1, h2, ?_⟩
    rw [localBeat]
    rcases hlocal wallet with ⟨-, hl⟩ | ⟨name, g, st, now, -, hl⟩
    · rw [hl]
      exact h3
    · rw [hl]
      rfl
  · intro wallet record hrecord
    rw [localBeat] at hrecord
    rcases hlocal wallet with ⟨hbeat, hl⟩ | ⟨name, g, st, now, hbeat, hl⟩
    · rw [hl] at hrecord
      exact (hm.shows wallet record hrecord).pass he hbeat _
    · rw [hl] at hrecord
      cases hrecord
      refine .inr ⟨n, g, st, hstart, ?_, rfl, rfl⟩
      show lastBeat (m.chain.events.take (m.seen + 1)) wallet = _
      rw [lastBeat, latest_succ _ he, hbeat]
      rfl

omit [Inhabited α] in
/-- The rest of the program, which leaves the heartbeats alone. -/
theorem sound_other {config : Config α} {m : Mirror α} (hm : m.Sound config) {fields : State α}
    (h : ∀ wallet, localBeat { m with fields := fields } wallet = m.localBeat wallet) :
    Sound config { m with fields := fields } := by
  refine ⟨hm.replay, hm.timely, hm.filling, hm.started, ?_, ?_⟩
  · intro wallet n hn
    obtain ⟨h1, h2, h3⟩ := hm.positions wallet n hn
    exact ⟨h1, h2, by rw [h]; exact h3⟩
  · intro wallet record hrecord
    rw [h] at hrecord
    exact hm.shows wallet record hrecord

theorem sound_step {config : Config α} {m m' : Mirror α} (hm : m.Sound config)
    (h : Step config m m') : m'.Sound config ∧ m.NoOlder m' := by
  cases h with
  | execute x hnow hpos => exact ⟨sound_execute hm x hnow, noOlder_same fun _ => rfl⟩
  | read h => exact ⟨sound_read hm h, noOlder_same fun _ => rfl⟩
  | record h => exact ⟨sound_record hm h, record_noOlder hm h⟩
  | subscribe hfill hstart =>
    exact ⟨sound_subscribe hm hfill hstart, noOlder_same fun _ => rfl⟩
  | deliver hstart he => exact ⟨sound_deliver hm hstart he, deliver_noOlder hm hstart he⟩
  | @other fields h =>
    have hlocal : ∀ wallet, localBeat { m with fields := fields } wallet = m.localBeat wallet := by
      intro wallet
      show fields.heartbeats.getHeartbeat wallet = _
      rw [h]
      rfl
    exact ⟨sound_other hm hlocal, noOlder_same hlocal⟩

theorem sound_steps {config : Config α} {m m' : Mirror α} (hm : m.Sound config)
    (h : ReflTransGen (Step config) m m') : m'.Sound config ∧ m.NoOlder m' := by
  induction h with
  | refl => exact ⟨hm, noOlder_same fun _ => rfl⟩
  | tail _ hstep ih =>
    obtain ⟨hsound, holder⟩ := ih
    obtain ⟨hsound', holder'⟩ := sound_step hsound hstep
    exact ⟨hsound', holder.trans holder'⟩

omit [Inhabited α] in
theorem lastBeat_quiet {m : Mirror α} {wallet : Wallet α} {n : ℕ} (hn : n ≤ m.chain.events.length)
    (hquiet : Quiet (beatOf wallet) m.chain.events n m.chain.events.length) :
    lastBeat m.chain.events wallet = lastBeat (m.chain.events.take n) wallet := by
  have hsame := quiet_latest hn hquiet
  rw [List.take_length] at hsame
  exact hsame

omit [Inhabited α] in
/-- An event after the read that is not delivered is no heartbeat of the account. -/
theorem undelivered_quiet {m : Mirror α} {who : α} {n : ℕ}
    (hall : ∀ i g st now, n ≤ i → m.chain.events[i]? = some (.newHeartbeat who g st now) →
      m.Delivered i) {i : ℕ} {e : Event α} (hi : n ≤ i) (he : m.chain.events[i]? = some e)
    (hnot : ¬ m.Delivered i) : beatOf (.address who) e = none := by
  cases e with
  | newHeartbeat other g st now =>
    by_cases hw : other = who
    · rw [hw] at he
      exact absurd (hall i g st now hi he) hnot
    · simp [beatOf, hw]
  | newLeader other g => rfl
  | giveUpLeader other g => rfl

omit [Inhabited α] in
theorem Sound.caught_up {config : Config α} {m : Mirror α} (hm : m.Sound config) {who : α} {n : ℕ}
    (hread : m.readAt (.address who) = some n)
    (hall : ∀ i g st now, n ≤ i → m.chain.events[i]? = some (.newHeartbeat who g st now) →
      m.Delivered i) :
    ∃ record, m.localBeat (.address who) = some record ∧
      record.blockNumber = m.chain.getHeartbeat who ∧
      ((∃ i g st now, n ≤ i ∧ m.chain.events[i]? = some (.newHeartbeat who g st now)) →
        record.group = ((m.chain.groups who).getD 0).toNat ∧
        record.nodeStatus = ((m.chain.nodesStatus who).getD 0).toNat) := by
  obtain ⟨hlen, hstarted, hlocal⟩ := hm.positions _ n hread
  obtain ⟨record, hrecord⟩ := Option.isSome_iff_exists.mp hlocal
  have hchain := chainBlock_eq hm.replay (.address who)
  refine ⟨record, hrecord, ?_⟩
  rcases hm.shows _ record hrecord with ⟨k, hk, hblock, hq⟩ | ⟨start, g, st, hs, hlast, hg, hst⟩
  · have hkn : n = k := Option.some.inj (hread.symm.trans hk)
    subst hkn
    have hquiet : Quiet (beatOf (.address who)) m.chain.events n m.chain.events.length := by
      intro i e h1 _ he
      by_cases hdel : m.Delivered i
      · obtain ⟨start, hs, hsi, hseen⟩ := hdel
        exact hq start hs i e hsi hseen he
      · exact undelivered_quiet hall h1 he hdel
    have hsame := lastBeat_quiet hlen hquiet
    constructor
    · rw [hblock, blockAt, ← hsame]
      exact hchain.symm
    · intro ⟨i, g, st, now, hi, he⟩
      have hnone := hquiet i _ hi (List.getElem?_eq_some_iff.mp he).1 he
      simp [beatOf] at hnone
  · obtain ⟨-, -, hseen⟩ := hm.started start hs
    have hquiet : Quiet (beatOf (.address who)) m.chain.events m.seen m.chain.events.length := by
      intro i e h1 _ he
      have hn := hstarted start hs
      have hle := (hm.started start hs).2.1
      refine undelivered_quiet hall (by omega) he ?_
      intro ⟨_, _, _, hi⟩
      omega
    have hfull : lastBeat m.chain.events (.address who) = some (g, st, record.blockNumber) :=
      (lastBeat_quiet hseen hquiet).trans hlast
    have hreplay := replay_lastBeat m.chain.events who
    rw [hm.replay, hfull] at hreplay
    obtain ⟨hgroups, hstatus, -⟩ := hreplay
    have hgroup : m.chain.groups who = some g := hgroups
    have hnodeStatus : m.chain.nodesStatus who = some st := hstatus
    rw [hfull] at hchain
    refine ⟨hchain.symm, fun _ => ⟨?_, ?_⟩⟩
    · rw [hg, hgroup]
      rfl
    · rw [hst, hnodeStatus]
      rfl

omit [Inhabited α] in
theorem Sound.filled {config : Config α} {m : Mirror α} (hm : m.Sound config)
    (hfill : m.fill.ended = true) {wallet : Wallet α} (hw : wallet ∈ config.nodesWallets) :
    (m.readAt wallet).isSome := by
  rcases hm.filling with ⟨-, wallets, hf, hall⟩ | ⟨w, n, wallets, -, -, -, hf, -⟩
  · cases wallets with
    | nil => exact (hall wallet hw).resolve_right (by simp)
    | cons w rest =>
      rw [hf] at hfill
      cases hfill
  · rw [hf] at hfill
    cases hfill

theorem reachable_sound {config : Config α} {m : Mirror α} (hm : Reachable config m) :
    m.Sound config := (sound_steps (boot_sound config) hm).1

/-- A local record never exceeds the chain and never goes back; once the
heartbeats since the read of a wallet are delivered its record equals the
chain's. -/
theorem heartbeat_map_mirrors_chain (config : Config α) (m : Mirror α)
    (hm : Reachable config m) :
    (∀ wallet record, m.localBeat wallet = some record →
      record.blockNumber ≤ chainBlock m.chain wallet) ∧
    (∀ m', ReflTransGen (Step config) m m' → ∀ wallet record,
      m.localBeat wallet = some record →
      ∃ record', m'.localBeat wallet = some record' ∧
        record.blockNumber ≤ record'.blockNumber) ∧
    (m.fill.ended = true → ∀ wallet ∈ config.nodesWallets, (m.readAt wallet).isSome) ∧
    (∀ who n, m.readAt (.address who) = some n →
      (∀ i g st now, n ≤ i → m.chain.events[i]? = some (.newHeartbeat who g st now) →
        m.Delivered i) →
      ∃ record, m.localBeat (.address who) = some record ∧
        record.blockNumber = m.chain.getHeartbeat who ∧
        ((∃ i g st now, n ≤ i ∧ m.chain.events[i]? = some (.newHeartbeat who g st now)) →
          record.group = ((m.chain.groups who).getD 0).toNat ∧
          record.nodeStatus = ((m.chain.nodesStatus who).getD 0).toNat)) := by
  have hs := reachable_sound hm
  exact ⟨fun _ _ h => hs.record_le h, fun _ h => (sound_steps hs h).2,
    fun hfill _ hw => hs.filled hfill hw, fun _ _ hread hall => hs.caught_up hread hall⟩

theorem heartbeat_map_mirrors_chain_read : ∃ m : Mirror ℕ, Reachable (plainNode 1) m ∧
    m.chain.events = [.newHeartbeat 1 1 2 3] ∧
    ∃ record, m.localBeat (.address 1) = some record ∧ record.blockNumber = 3 := by
  have hbeat : Step (plainNode 1) (boot (plainNode 1)) _ :=
    .execute ⟨3, .signed 1, .addHeartbeat 1 2⟩ (Nat.zero_le _) (by decide)
  have hread := ReflTransGen.tail (.single hbeat) (.read rfl)
  have hrecord := hread.tail (.record rfl)
  have hmirrors := (heartbeat_map_mirrors_chain (plainNode 1) _ hrecord).2.2.2 1 1 rfl
  refine ⟨_, hrecord, rfl, ?_⟩
  obtain ⟨record, hr, hblock, -⟩ := hmirrors fun i g st now hi he => by
    have hlt := (List.getElem?_eq_some_iff.mp he).1
    have hone : i < 1 := hlt
    omega
  exact ⟨record, hr, hblock⟩

end Mirror
end Archipel.Orchestrator
