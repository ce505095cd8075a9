import Mathlib.Data.List.TakeWhile
import Archipel.Json.Scan
import Archipel.Polkadot.Flows

/-!
# The health check of the service

`isServiceReadyToStart` looks for two patterns in the text of the response of
`system_health`. It judges by the first peers number and the first sign of
synchronisation in the whole text, wherever they stand, and so by those of the
result only where nothing before them reads like one.
-/

namespace Archipel.Polkadot
open Async Docker Utils

/-! ### The check -/

/-- `\d+` -/
def leadingDigits (t : List Char) : Option (List Char) :=
  if t.takeWhile Char.isDigit = [] then none else some (t.takeWhile Char.isDigit)

def parseInt (digits : List Char) : ℕ := Nat.ofDigitChars 10 digits 0

/-- `match(/"peers":\d+/)`, by the digits of the match. -/
def matchPeers (resultSystemHealth : String) : Option (List Char) :=
  Json.search (Json.look "peers".toList leadingDigits fun _ => none) resultSystemHealth.toList

/-- `match(/"isSyncing":true|false/)`, by whether the match includes 'true'. -/
def matchSyncing (resultSystemHealth : String) : Option Bool :=
  Json.search (Json.look "isSyncing".toList (Json.bareWord "true".toList true)
    (Json.bareWord "false".toList false)) resultSystemHealth.toList

def isServiceReadyToStart (config : Config) : Method Bool :=
  try
    if config.polkadotSimulateSynch then
      pure true
    else do
      let resultPost ← request (.post "system_health" [])
      match resultPost with
      | none => pure false
      | some resultSystemHealth =>
        -- Checking if system_health gives a result
        if !includes resultSystemHealth "\"result\":" then
          pure false
        else
          match matchPeers resultSystemHealth with
          | none => pure false
          | some peersSystemHealth =>
            -- Check if polkadot node has peers
            let peersNumber := parseInt peersSystemHealth
            if peersNumber ≤ 0 then
              pure false
            else
              match matchSyncing resultSystemHealth with
              | none => throw "TypeError: Cannot read properties of null"
              | some isSyncing =>
                if isSyncing then
                  pure false
                else do
                  -- Check if all keys were added to keystore
                  let s ← get
                  if s.importedKeys.length < 6 then
                    pure false
                  else
                    pure true
  catch _ => pure false

/-- The response of `system_health` has the data `data`. -/
def answeringHealth (data : Json.Value) : Env Docker.api String Unit
  | .post method _, _, r, _ => method = "system_health" →
    r = .ok (some (String.ofList (Json.stringify data)))
  | _, _, _, _ => True

/-- What the check makes of the text. -/
def Healthful (resultSystemHealth : String) (importedKeys : List String) : Prop :=
  includes resultSystemHealth "\"result\":" = true ∧
  (∃ digits, matchPeers resultSystemHealth = some digits ∧ 0 < parseInt digits) ∧
  matchSyncing resultSystemHealth = some false ∧ 6 ≤ importedKeys.length

theorem wp_isServiceReadyToStart {T : CallSpec Docker.api String (State × Unit)} (hT : T.Mono)
    {config : Config} (hsim : config.polkadotSimulateSynch = false) {s : State}
    {resultSystemHealth : String}
    (hpost : T (.post "system_health" [])
      (fun r y => r = .ok (some resultSystemHealth) ∧ y = (s, ())) (s, ())) :
    wp T free (isServiceReadyToStart config) (fun out _ => ∃ ready, out = .ok ready ∧
      (ready = true ↔ Healthful resultSystemHealth s.importedKeys)) (s, ()) := by
  unfold isServiceReadyToStart
  rw [wp_tryCatch, if_neg (by simp [hsim])]
  show wp _ _ (request (.post "system_health" []) >>= _) _ _
  rw [wp_bind]
  refine (wp_call ..).mpr (hT _ _ _ ?_ _ hpost)
  intro r y hr
  obtain ⟨hanswer, rfl⟩ := hr
  rw [hanswer]
  dsimp only
  split
  · next hresult =>
    refine ⟨false, rfl, ?_⟩
    simp only [Bool.not_eq_true'] at hresult
    simp [Healthful, hresult]
  · next hresult =>
    have hresult' : includes resultSystemHealth "\"result\":" = true := by simpa using hresult
    cases hpeers : matchPeers resultSystemHealth with
    | none => exact ⟨false, rfl, by simp [Healthful, hpeers]⟩
    | some digits =>
      dsimp only
      split
      · next hzero =>
        have hnot : ¬ 0 < parseInt digits := by omega
        exact ⟨false, rfl, by simp [Healthful, hpeers, hnot]⟩
      · next hpos =>
        have hmany : 0 < parseInt digits := by omega
        cases hsync : matchSyncing resultSystemHealth with
        | none => exact ⟨false, rfl, by simp [Healthful, hsync]⟩
        | some isSyncing =>
          cases isSyncing with
          | true => exact ⟨false, rfl, by simp [Healthful, hsync]⟩
          | false =>
            show wp _ _ (get >>= _) _ _
            rw [wp_get_bind]
            split
            · next hkeys =>
              have hfew : ¬ 6 ≤ s.importedKeys.length := Nat.not_le.mpr hkeys
              exact ⟨false, rfl, by simp [Healthful, hfew]⟩
            · next hkeys =>
              have hall : 6 ≤ s.importedKeys.length := Nat.not_lt.mp hkeys
              exact ⟨true, rfl, by simp [Healthful, hresult', hpeers, hmany, hsync, hall]⟩

/-! ### The patterns over a JSON text -/

def peersField : Json.Value → Option (List Char)
  | .number n => leadingDigits n.text
  | _ => none

def syncingField : Json.Value → Option Bool
  | .bool true => some true
  | _ => none

theorem takeWhile_closing (x : List Char) {t : List Char} (ht : Json.Closing t) :
    (x ++ t).takeWhile Char.isDigit = x.takeWhile Char.isDigit := by
  induction x with
  | nil =>
    rcases ht with rfl | ⟨c, u, rfl, hc⟩
    · rfl
    · have hdigit : c.isDigit = false := by
        simp only [List.mem_cons, List.not_mem_nil, or_false] at hc
        rcases hc with rfl | rfl | rfl <;> decide
      simp [hdigit]
  | cons c x ih => simp [List.takeWhile_cons, ih]

theorem fielded_peers : Json.Fielded leadingDigits peersField := by
  intro v t ht
  have hhead : ∀ (c : Char) (u : List Char), c.isDigit = false → leadingDigits (c :: u) = none := by
    intro c u hc
    simp [leadingDigits, hc]
  rcases Json.stringify_head v with ⟨n, rfl⟩ | rfl | ⟨hnumber, -, c, u, htext, hc⟩
  · rw [Json.stringify, leadingDigits, takeWhile_closing n.text ht]
    rfl
  · exact hhead 't' _ (by decide)
  · have hfield : peersField v = none := by
      cases v with
      | number n => exact absurd rfl (hnumber n)
      | _ => rfl
    have hdigit : c.isDigit = false := by
      have hall : ∀ c ∈ ['n', 'f', '"', '[', '{'], c.isDigit = false := by simp
      exact hall c hc
    rw [htext, hfield]
    exact hhead c _ hdigit

theorem bareWord_true_head {c : Char} (hc : c ≠ 't') (u : List Char) :
    Json.bareWord "true".toList true (c :: u) = none := by
  have hno : ¬ ['t', 'r', 'u', 'e'] <+: c :: u :=
    fun h => hc (List.cons_prefix_cons.mp h).1.symm
  exact if_neg hno

theorem fielded_syncing : Json.Fielded (Json.bareWord "true".toList true) syncingField := by
  intro v t ht
  rcases Json.stringify_head v with ⟨n, rfl⟩ | rfl | ⟨-, htrue, c, u, htext, hc⟩
  · obtain ⟨text, hchars⟩ := n
    rw [Json.stringify]
    show Json.bareWord "true".toList true (text ++ t) = none
    cases text with
    | nil =>
      rcases ht with rfl | ⟨c, u, rfl, hc⟩
      · rfl
      · have hne : ∀ c ∈ [',', ']', '}'], c ≠ 't' := by simp
        exact bareWord_true_head (hne c hc) u
    | cons c u =>
      have hne : ∀ c ∈ Json.numberChars, c ≠ 't' := by simp [Json.numberChars]
      exact bareWord_true_head (hne c (hchars c List.mem_cons_self)) (u ++ t)
  · have hyes : "true".toList <+: "true".toList ++ t := List.prefix_append _ _
    rw [Json.stringify, Json.bareWord, if_pos hyes]
    rfl
  · have hfield : syncingField v = none := by
      cases v with
      | bool b =>
        cases b with
        | true => exact absurd rfl htrue
        | false => rfl
      | _ => rfl
    have hne : ∀ c ∈ ['n', 'f', '"', '[', '{'], c ≠ 't' := by simp
    rw [htext, hfield]
    exact bareWord_true_head (hne c hc) (u ++ t)

theorem peers_word : Json.Word "peers".toList := ⟨by simp [Json.marks], by simp⟩

theorem isSyncing_word : Json.Word "isSyncing".toList := ⟨by simp [Json.marks], by simp⟩

theorem false_word : Json.Word "false".toList := ⟨by simp [Json.marks], by simp⟩

theorem matchPeers_stringify (data : Json.Value) :
    matchPeers (String.ofList (Json.stringify data)) =
      Json.read "peers".toList peersField (fun _ => none) data := by
  have htext : (String.ofList (Json.stringify data)).toList = Json.stringify data :=
    String.toList_ofList
  unfold matchPeers
  rw [htext]
  exact Json.search_stringify peers_word Json.bare_none (Json.search_none _) fielded_peers data

theorem matchSyncing_stringify (data : Json.Value) :
    matchSyncing (String.ofList (Json.stringify data)) =
      Json.read "isSyncing".toList syncingField (Json.bareWord "false".toList false) data := by
  have htext : (String.ofList (Json.stringify data)).toList = Json.stringify data :=
    String.toList_ofList
  unfold matchSyncing
  rw [htext]
  exact Json.search_stringify isSyncing_word (Json.bare_bareWord false_word false) (by decide)
    fielded_syncing data

/-! ### The object that the text stands for -/

/-- The data of a response: its result has a natural number of peers and says
whether the node is syncing. -/
structure Health where
  fields : List (Json.Text × Json.Value)
  result : List (Json.Text × Json.Value)
  peersText : Json.Number
  peers : ℕ
  isSyncing : Bool
  hasResult : fields.lookup (Json.text "result") = some (.object result)
  hasPeers : result.lookup (Json.text "peers") = some (.number peersText)
  natural : peersText.Natural peers
  hasSyncing : result.lookup (Json.text "isSyncing") = some (.bool isSyncing)

namespace Health

def data (health : Health) : Json.Value := .object health.fields

/-- The first peers number that stands before that of the result: under a key
that is `peers` or ends in `"peers`, at any depth. -/
def peersBefore (health : Health) : Option ℕ :=
  ((Json.readFields "peers".toList peersField (fun _ => none)
      (Json.before (Json.text "result") health.fields)).or
    (Json.readFields "peers".toList peersField (fun _ => none)
      (Json.before (Json.text "peers") health.result))).map parseInt

/-- What first reads like a sign of synchronisation before that of the result:
`true` under a key that is `isSyncing` or ends in `"isSyncing`, or a `false`
anywhere, in a key or a string too. -/
def syncingBefore (health : Health) : Option Bool :=
  (Json.readFields "isSyncing".toList syncingField (Json.bareWord "false".toList false)
      (Json.before (Json.text "result") health.fields)).or
    (Json.readFields "isSyncing".toList syncingField (Json.bareWord "false".toList false)
      (Json.before (Json.text "isSyncing") health.result))

/-- The number and the sign that the check takes for those of the result. -/
def seenPeers (health : Health) : ℕ := health.peersBefore.getD health.peers

def seenSyncing (health : Health) : Bool := health.syncingBefore.getD health.isSyncing

end Health

theorem parseInt_pos_of_head {d : Char} {rest : List Char} (hd : d ∈ "123456789".toList) :
    0 < parseInt (d :: rest) := by
  have hdigit : ∀ d ∈ "123456789".toList, 0 < d.toNat - '0'.toNat := by simp
  have hpos := hdigit d hd
  unfold parseInt
  rw [Nat.ofDigitChars_cons, Nat.ofDigitChars_eq_ofDigitChars_zero]
  have hten : 0 < 10 ^ rest.length := Nat.pow_pos (by decide)
  have hmul : 0 < 10 ^ rest.length * (10 * 0 + (d.toNat - '0'.toNat)) :=
    Nat.mul_pos hten (by omega)
  omega

/-- The digits of a natural number tell whether it is positive. -/
theorem natural_digits {number : Json.Number} {n : ℕ} (h : number.Natural n) :
    ∃ digits, leadingDigits number.text = some digits ∧ (0 < parseInt digits ↔ 0 < n) := by
  unfold Json.Number.Natural at h
  split at h
  · have hall : number.text.takeWhile Char.isDigit = number.text := by
      rw [h]
      apply List.takeWhile_eq_self_iff.mpr
      exact fun c hc => Nat.isDigit_of_mem_toDigits (by decide) (by decide) hc
    refine ⟨number.text, ?_, ?_⟩
    · unfold leadingDigits
      rw [hall, if_neg]
      rw [h]
      exact Nat.toDigits_ne_nil
    · rw [h, parseInt, Nat.ofDigitChars_ten_toDigits]
  · next hlarge =>
    obtain ⟨d, rest, htext, hd⟩ := h
    have hdigit : ∀ d ∈ "123456789".toList, d.isDigit = true := by simp
    refine ⟨d :: rest.takeWhile Char.isDigit, ?_, ?_⟩
    · rw [htext]
      simp [leadingDigits, hdigit d hd]
    · have hpos : 0 < parseInt (d :: rest.takeWhile Char.isDigit) := parseInt_pos_of_head hd
      constructor
      · intro _
        omega
      · intro _
        exact hpos

/-! ### What the check sees -/

theorem includes_result (health : Health) :
    includes (String.ofList (Json.stringify health.data)) "\"result\":" = true := by
  obtain ⟨after, hfields⟩ := Json.lookup_split health.hasResult
  have hmem : (Json.text "result", Json.Value.object health.result) ∈ health.fields := by
    rw [hfields]
    simp
  have hinfix := Json.key_infix hmem
  have htext : (String.ofList (Json.stringify health.data)).toList = Json.stringify health.data :=
    String.toList_ofList
  unfold includes
  rw [htext]
  exact decide_eq_true hinfix

theorem sees_peers (health : Health) :
    ∃ digits, matchPeers (String.ofList (Json.stringify health.data)) = some digits ∧
      (0 < parseInt digits ↔ 0 < health.seenPeers) := by
  obtain ⟨digits, hdigits, hpos⟩ := natural_digits health.natural
  obtain ⟨after, hfields⟩ := Json.lookup_split health.hasResult
  obtain ⟨after', hresult⟩ := Json.lookup_split health.hasPeers
  have hread : matchPeers (String.ofList (Json.stringify health.data)) =
      ((Json.readFields "peers".toList peersField (fun _ => none)
          (Json.before (Json.text "result") health.fields)).or
        (Json.readFields "peers".toList peersField (fun _ => none)
          (Json.before (Json.text "peers") health.result))).or (some digits) := by
    have hkeyed : Json.Keyed "peers".toList (Json.text "peers") := by decide
    have hother : ¬ Json.Keyed "peers".toList (Json.text "result") := by decide
    rw [matchPeers_stringify, Health.data, Json.read]
    conv_lhs => rw [hfields]
    rw [Json.readFields_append, Json.readFields, if_neg hother, Json.read]
    conv_lhs => rw [hresult]
    rw [Json.readFields_append, Json.readFields, if_pos hkeyed]
    simp [peersField, hdigits]
  rw [hread]
  unfold Health.seenPeers Health.peersBefore
  cases hbefore : (Json.readFields "peers".toList peersField (fun _ => none)
      (Json.before (Json.text "result") health.fields)).or
    (Json.readFields "peers".toList peersField (fun _ => none)
      (Json.before (Json.text "peers") health.result)) with
  | none => exact ⟨digits, rfl, hpos⟩
  | some found => exact ⟨found, rfl, Iff.rfl⟩

theorem sees_syncing (health : Health) :
    matchSyncing (String.ofList (Json.stringify health.data)) = some health.seenSyncing := by
  obtain ⟨after, hfields⟩ := Json.lookup_split health.hasResult
  obtain ⟨after', hresult⟩ := Json.lookup_split health.hasSyncing
  have hread : matchSyncing (String.ofList (Json.stringify health.data)) =
      ((Json.readFields "isSyncing".toList syncingField (Json.bareWord "false".toList false)
          (Json.before (Json.text "result") health.fields)).or
        (Json.readFields "isSyncing".toList syncingField (Json.bareWord "false".toList false)
          (Json.before (Json.text "isSyncing") health.result))).or (some health.isSyncing) := by
    have hkeyed : Json.Keyed "isSyncing".toList (Json.text "isSyncing") := by decide
    have hother : ¬ Json.Keyed "isSyncing".toList (Json.text "result") := by decide
    have hquiet : Json.search (Json.bareWord "false".toList false)
        (Json.escape (Json.text "result")) = none := by decide
    have hquiet' : Json.search (Json.bareWord "false".toList false)
        (Json.escape (Json.text "isSyncing")) = none := by decide
    have hfalse : Json.search (Json.bareWord "false".toList false) "false".toList = some false := by
      decide
    rw [matchSyncing_stringify, Health.data, Json.read]
    conv_lhs => rw [hfields]
    rw [Json.readFields_append, Json.readFields, if_neg hother, Json.read, hquiet]
    conv_lhs => rw [hresult]
    rw [Json.readFields_append, Json.readFields, if_pos hkeyed, hquiet']
    cases health.isSyncing with
    | true => simp only [syncingField, Option.none_or, Option.some_or, Option.or_assoc]
    | false => simp only [syncingField, Json.read, hfalse, Option.none_or, Option.some_or,
        Option.or_assoc]
  rw [hread]
  unfold Health.seenSyncing Health.syncingBefore
  cases hbefore : (Json.readFields "isSyncing".toList syncingField
      (Json.bareWord "false".toList false) (Json.before (Json.text "result") health.fields)).or
    (Json.readFields "isSyncing".toList syncingField (Json.bareWord "false".toList false)
      (Json.before (Json.text "isSyncing") health.result)) with
  | none => rfl
  | some found => rfl

theorem healthful_iff (health : Health) (importedKeys : List String) :
    Healthful (String.ofList (Json.stringify health.data)) importedKeys ↔
      0 < health.seenPeers ∧ health.seenSyncing = false ∧ 6 ≤ importedKeys.length := by
  obtain ⟨digits, hmatch, hpos⟩ := sees_peers health
  unfold Healthful
  rw [sees_syncing health, hmatch]
  constructor
  · intro h
    obtain ⟨-, ⟨found, hfound, hfoundpos⟩, hsync, hkeys⟩ := h
    cases hfound
    exact ⟨hpos.mp hfoundpos, Option.some.inj hsync, hkeys⟩
  · intro h
    obtain ⟨hseen, hsync, hkeys⟩ := h
    exact ⟨includes_result health, ⟨digits, rfl, hpos.mpr hseen⟩, by rw [hsync], hkeys⟩

/-! ### The check -/

theorem isServiceReadyToStart_sees {config : Config}
    (hsim : config.polkadotSimulateSynch = false) (health : Health) {s : State}
    {out : Except String Bool} {y : State × Unit}
    (h : Runs (answeringHealth health.data) (isServiceReadyToStart config) (s, ()) out y) :
    ∃ ready, out = .ok ready ∧ (ready = true ↔
      0 < health.seenPeers ∧ health.seenSyncing = false ∧ 6 ≤ s.importedKeys.length) := by
  have hpost : demonic (σ := State) (answeringHealth health.data) (.post "system_health" [])
      (fun r y => r = .ok (some (String.ofList (Json.stringify health.data))) ∧ y = (s, ()))
      (s, ()) := fun r w hr => ⟨hr rfl, rfl⟩
  have hwp := wp_isServiceReadyToStart (demonic_mono (answeringHealth health.data)) hsim hpost
  obtain ⟨ready, hout, hready⟩ := wp_runs hwp h
  exact ⟨ready, hout, hready.trans (healthful_iff health s.importedKeys)⟩

theorem isServiceReadyToStart_runs {config : Config}
    (hsim : config.polkadotSimulateSynch = false) (health : Health) (s : State) :
    ∃ ready y, Runs (answeringHealth health.data) (isServiceReadyToStart config) (s, ())
      (.ok ready) y := by
  have hpost : angelic (σ := State) (answeringHealth health.data) (.post "system_health" [])
      (fun r y => r = .ok (some (String.ofList (Json.stringify health.data))) ∧ y = (s, ()))
      (s, ()) :=
    ⟨.ok (some (String.ofList (Json.stringify health.data))), (), fun _ => rfl, rfl, rfl⟩
  have hwp := wp_isServiceReadyToStart (angelic_mono (answeringHealth health.data)) hsim hpost
  obtain ⟨out, y, hruns, ready, rfl, -⟩ := angelic_runs hwp
  exact ⟨ready, y, hruns⟩

/-- The check reads the result if and only if fewer than six keys are imported or
the number and the sign that it takes for those of the result make the same
verdict. -/
theorem reads_health_iff (config : Config) (hsim : config.polkadotSimulateSynch = false)
    (s : State) (health : Health) :
    (∀ out y, Runs (answeringHealth health.data) (isServiceReadyToStart config) (s, ()) out y →
      ∃ ready, out = .ok ready ∧ (ready = true ↔
        0 < health.peers ∧ health.isSyncing = false ∧ 6 ≤ s.importedKeys.length)) ↔
    s.importedKeys.length < 6 ∨ (0 < health.seenPeers ∧ health.seenSyncing = false ↔
      0 < health.peers ∧ health.isSyncing = false) := by
  constructor
  · intro hreads
    by_cases hkeys : s.importedKeys.length < 6
    · exact .inl hkeys
    · right
      obtain ⟨ready, y, hruns⟩ := isServiceReadyToStart_runs hsim health s
      obtain ⟨seen, hseen, hsees⟩ := isServiceReadyToStart_sees hsim health hruns
      obtain ⟨read, hread, hreads⟩ := hreads _ y hruns
      cases hseen
      cases hread
      have hsix : 6 ≤ s.importedKeys.length := by omega
      constructor
      · intro h
        obtain ⟨hpeers, hsync, -⟩ := hreads.mp (hsees.mpr ⟨h.1, h.2, hsix⟩)
        exact ⟨hpeers, hsync⟩
      · intro h
        obtain ⟨hpeers, hsync, -⟩ := hsees.mp (hreads.mpr ⟨h.1, h.2, hsix⟩)
        exact ⟨hpeers, hsync⟩
  · intro hagree out y hruns
    obtain ⟨ready, hout, hsees⟩ := isServiceReadyToStart_sees hsim health hruns
    refine ⟨ready, hout, hsees.trans ?_⟩
    rcases hagree with hkeys | hagree
    · constructor
      · intro h
        omega
      · intro h
        omega
    · constructor
      · intro h
        obtain ⟨hpeers, hsync⟩ := hagree.mp ⟨h.1, h.2.1⟩
        exact ⟨hpeers, hsync, h.2.2⟩
      · intro h
        obtain ⟨hpeers, hsync⟩ := hagree.mpr ⟨h.1, h.2.1⟩
        exact ⟨hpeers, hsync, h.2.2⟩

/-! ### A node that is syncing -/

def twenty : Json.Number := ⟨['2', '0'], by simp [Json.numberChars]⟩

/-- The fields of the result in the given order of two of them. -/
def healthResult (shouldFirst : Bool) : List (Json.Text × Json.Value) :=
  if shouldFirst then
    [(Json.text "shouldHavePeers", .bool false), (Json.text "peers", .number twenty),
      (Json.text "isSyncing", .bool true)]
  else
    [(Json.text "peers", .number twenty), (Json.text "isSyncing", .bool true),
      (Json.text "shouldHavePeers", .bool false)]

def syncingHealth (shouldFirst : Bool) : Health where
  fields := [(Json.text "jsonrpc", .string (Json.text "2.0")),
    (Json.text "result", .object (healthResult shouldFirst))]
  result := healthResult shouldFirst
  peersText := twenty
  peers := 20
  isSyncing := true
  hasResult := by cases shouldFirst <;> rfl
  hasPeers := by cases shouldFirst <;> rfl
  natural := by
    unfold Json.Number.Natural
    rw [if_pos (by decide)]
    rfl
  hasSyncing := by cases shouldFirst <;> rfl

def allKeys : State := { importedKeys := ["1", "2", "3", "4", "5", "6"] }

theorem reads_health_iff_syncing :
    (∀ out y, Runs (answeringHealth (syncingHealth false).data)
      (isServiceReadyToStart plainConfig) (allKeys, ()) out y →
      ∃ ready, out = .ok ready ∧ (ready = true ↔
        0 < (syncingHealth false).peers ∧ (syncingHealth false).isSyncing = false ∧
          6 ≤ allKeys.importedKeys.length)) ↔
    allKeys.importedKeys.length < 6 ∨
      (0 < (syncingHealth false).seenPeers ∧ (syncingHealth false).seenSyncing = false ↔
        0 < (syncingHealth false).peers ∧ (syncingHealth false).isSyncing = false) :=
  reads_health_iff plainConfig rfl allKeys (syncingHealth false)

/-- With `shouldHavePeers` before it, the `false` of that field is taken for the
sign of synchronisation, and a node that is syncing is ready. -/
theorem syncing_node_ready : ¬ ∀ (config : Config), config.polkadotSimulateSynch = false →
    ∀ (s : State) (health : Health) (out : Except String Bool) (y : State × Unit),
      Runs (answeringHealth health.data) (isServiceReadyToStart config) (s, ()) out y →
      ∃ ready, out = .ok ready ∧ (ready = true ↔
        0 < health.peers ∧ health.isSyncing = false ∧ 6 ≤ s.importedKeys.length) := by
  intro hall
  have hagree := (reads_health_iff plainConfig rfl allKeys (syncingHealth true)).mp
    (hall plainConfig rfl allKeys (syncingHealth true))
  have hdisagree : ¬ (allKeys.importedKeys.length < 6 ∨
      (0 < (syncingHealth true).seenPeers ∧ (syncingHealth true).seenSyncing = false ↔
        0 < (syncingHealth true).peers ∧ (syncingHealth true).isSyncing = false)) := by decide
  exact hdisagree hagree

end Archipel.Polkadot
