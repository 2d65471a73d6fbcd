import MiniWorld.Lib.Format
import MiniWorld.Lib.Round
import MiniWorld.Network.Node
import Mathlib.Algebra.Order.Field.Basic
import Mathlib.Tactic.Positivity

/-!
# The link quality models

`LinkQualityModelRange`, `LinkQualityModelWiFiLinear` and `LinkQualityModelWiFiExponential`
(`model/network/linkqualitymodels`) make of a distance whether two nodes are connected and
a link quality. Distances are exact rationals here; all models round them first.

A model precalculates its maximum connected distance, the first one that is not
connected (`precalculate`). `connected_iff_below_max`: a distance is connected exactly if
it rounds to one from 0 up to that maximum, with one exception, which is the distance -1
in the linear model: it shifts the distance by one before it asks for the sign. -1 is
what the distance matrix calls unlimited.

`wifi_monotone`: over the distances from 0 on, both WiFi models get worse with the distance.

Mirroring notes:

* A link quality holds the settings of netem too, all of them `None`. The delay is a text
  (`delayCmd`); `delayConst` is the number in it, in ms.
* `bandwidth or MAX_BANDWIDTH`: no bandwidth and the bandwidth 0 are the same.
* Outside of the models no distance is negative but for `UNLIMITED_DISTANCE`.
-/

namespace MiniWorld.Network

open MiniWorld.Lib

/-- `DistanceMatrixDict.UNLIMITED_DISTANCE` -/
def unlimitedDistance : ℤ := -1

/-! ## Link qualities -/

/-- `'%.2f' % x`, of a number that is not negative -/
def fixed2 (x : ℚ) : Text :=
  let hundredths := (roundHalfEven (100 * x)).toNat
  decimal (hundredths / 100) ++ '.' :: formatNat 10 2 (hundredths % 100)

/-- `delay_cmd`: a delay in ms with a variation of a tenth -/
def delayCmd (delayConst : ℚ) : String :=
  String.ofList (fixed2 delayConst ++ "ms ".toList ++ fixed2 (delayConst / 10) ++ "ms 25%".toList)

namespace LinkQualityModelNetEm

/-- The `default_link_quality` of the WiFi models. -/
def defaultLinkQuality : LinkQuality :=
  Dict.ofItems [(.loss, .none), (.limit, .none), (.delay, .none), (.corrupt, .none),
    (.duplicate, .none), (.reorder, .none), (.rate, .none)]

/-- `MAX_BANDWIDTH` -/
def MAX_BANDWIDTH : ℚ := 54000

/-- `scenario_config.get_link_bandwidth() or self.MAX_BANDWIDTH` -/
def maxBandwidth (bandwidth : Option ℚ) : ℚ :=
  match bandwidth with
  | some b => if b = 0 then MAX_BANDWIDTH else b
  | none => MAX_BANDWIDTH

/-- The link quality with its bandwidth and its delay. -/
def withBandwidthAndDelay (bandwidth delayConst : ℚ) : LinkQuality :=
  (Dict.set defaultLinkQuality .bandwidth (.num bandwidth)).set .delay (.text (delayCmd delayConst))

theorem get_bandwidth (bandwidth delayConst : ℚ) :
    (withBandwidthAndDelay bandwidth delayConst).get .bandwidth = .num bandwidth := by
  unfold withBandwidthAndDelay LinkQuality.get
  rw [Dict.lookup_set, if_neg (by decide), Dict.lookup_set_self]
  rfl

theorem get_delay (bandwidth delayConst : ℚ) :
    (withBandwidthAndDelay bandwidth delayConst).get .delay = .text (delayCmd delayConst) := by
  unfold withBandwidthAndDelay LinkQuality.get
  rw [Dict.lookup_set_self]
  rfl

end LinkQualityModelNetEm

open LinkQualityModelNetEm

/-! ## The models, over rounded distances -/

namespace LinkQualityModelRange

/-- `_distance_2_link_quality` -/
def distance2LinkQuality (distance : ℤ) : Bool × Option LinkQuality :=
  if 0 ≤ distance ∧ distance < 30 then (true, some (Dict.ofItems [(.loss, .num 0)]))
  else (false, none)

end LinkQualityModelRange

namespace LinkQualityModelWiFiLinear

variable (bandwidth : Option ℚ) (distance : ℤ)

/-- The distance after the shift, `(distance + 1) / 2`. -/
def shifted : ℚ := ((distance : ℚ) + 1) / 2

/-- `bandwidth` -/
def bandwidthAt : ℚ :=
  if 1 < shifted distance then maxBandwidth bandwidth / shifted distance else maxBandwidth bandwidth

/-- `delay_const` -/
def delayConst : ℚ := if 1 < shifted distance then (shifted distance - 1) * 2 else 0

/-- `_distance_2_link_quality` -/
def distance2LinkQuality : Bool × Option LinkQuality :=
  if 0 ≤ distance + 1 ∧ 0 ≤ shifted distance then
    (decide (1000 ≤ bandwidthAt bandwidth distance),
      some (withBandwidthAndDelay (bandwidthAt bandwidth distance) (delayConst distance)))
  else (false, some defaultLinkQuality)

end LinkQualityModelWiFiLinear

namespace LinkQualityModelWiFiExponential

variable (bandwidth : Option ℚ) (distance : ℤ)

/-- `2 ** int(distance / 4.0)`, of a distance that is not negative -/
def bandwidthDivisor : ℚ := 2 ^ (distance / 4).toNat

/-- `bandwidth` -/
def bandwidthAt : ℚ :=
  if 1 ≤ distance then maxBandwidth bandwidth / bandwidthDivisor distance
  else maxBandwidth bandwidth

/-- `delay_const` -/
def delayConst : ℚ := bandwidthDivisor distance

/-- `_distance_2_link_quality` -/
def distance2LinkQuality : Bool × Option LinkQuality :=
  if 0 ≤ distance then
    (decide (1000 ≤ bandwidthAt bandwidth distance),
      some (withBandwidthAndDelay (bandwidthAt bandwidth distance) (delayConst distance)))
  else (false, some defaultLinkQuality)

end LinkQualityModelWiFiExponential

/-- The classes of link quality models. -/
inductive LinkQualityModelClass where
  | range | wifiLinear | wifiExponential
deriving DecidableEq, Repr

namespace LinkQualityModelClass

/-- `_distance_2_link_quality` of a class, for the configured bandwidth. -/
def distance2LinkQuality (cls : LinkQualityModelClass) (bandwidth : Option ℚ) (distance : ℤ) :
    Bool × Option LinkQuality :=
  match cls with
  | .range => LinkQualityModelRange.distance2LinkQuality distance
  | .wifiLinear => LinkQualityModelWiFiLinear.distance2LinkQuality bandwidth distance
  | .wifiExponential => LinkQualityModelWiFiExponential.distance2LinkQuality bandwidth distance

/-- Whether a rounded distance is connected. -/
def isConnected (cls : LinkQualityModelClass) (bandwidth : Option ℚ) (distance : ℤ) : Bool :=
  (cls.distance2LinkQuality bandwidth distance).1

/-- A model of the class, with `distance_2_link_quality` and `get_initial_link_quality`. -/
def model (cls : LinkQualityModelClass) (bandwidth : Option ℚ) : LinkQualityModel ℚ where
  distance2LinkQuality d := cls.distance2LinkQuality bandwidth (roundHalfEven d)
  initialLinkQuality :=
    Dict.ofItems [(.bandwidth, (bandwidth.map .num).getD .none), (.loss, .num 0)]
  quality d h := by
    cases cls with
    | range =>
      unfold distance2LinkQuality LinkQualityModelRange.distance2LinkQuality at h ⊢
      dsimp only at h ⊢
      split at h
      next hd => rw [if_pos hd]; rfl
      next => exact absurd h (by simp)
    | wifiLinear =>
      unfold distance2LinkQuality LinkQualityModelWiFiLinear.distance2LinkQuality
      dsimp only
      split
      · rfl
      · rfl
    | wifiExponential =>
      unfold distance2LinkQuality LinkQualityModelWiFiExponential.distance2LinkQuality
      dsimp only
      split
      · rfl
      · rfl

end LinkQualityModelClass

/-! ## The maximum connected distance -/

/-- `sys.maxsize` -/
def maxSize : Nat := 2 ^ 63 - 1

/-- The loop of `precalculate`: the first distance that is not connected, of `fuel` many. -/
def firstUnconnected (connected : ℤ → Bool) : (fuel distance : Nat) → Option Nat
  | 0, _ => none
  | fuel + 1, distance =>
    if connected distance then firstUnconnected connected fuel (distance + 1) else some distance

/-- `precalculate`; without a result the constructor raises. -/
def precalculate (cls : LinkQualityModelClass) (bandwidth : Option ℚ) : Option Nat :=
  firstUnconnected (cls.isConnected bandwidth) maxSize 0

/-- A link quality model that has been constructed. -/
structure LoadedLinkQualityModel where
  cls : LinkQualityModelClass
  bandwidth : Option ℚ
  maxConnectedDistance : Nat
  precalculated : precalculate cls bandwidth = some maxConnectedDistance

/-- `distance_2_link_quality`: does it call the distance connected? -/
def LoadedLinkQualityModel.connected (m : LoadedLinkQualityModel) (distance : ℚ) : Bool :=
  (m.cls.model m.bandwidth).connected distance

theorem firstUnconnected_spec {connected : ℤ → Bool} :
    ∀ {fuel distance M : Nat}, firstUnconnected connected fuel distance = some M →
      connected M = false ∧ ∀ n : Nat, distance ≤ n → n < M → connected n = true
  | 0, _, _, h => absurd h (by simp [firstUnconnected])
  | fuel + 1, distance, M, h => by
    unfold firstUnconnected at h
    split at h
    next hc =>
      obtain ⟨hM, hall⟩ := firstUnconnected_spec h
      refine ⟨hM, fun n hn hlt => ?_⟩
      rcases hn.lt_or_eq with hn | rfl
      · exact hall n hn hlt
      · exact hc
    next hc =>
      obtain rfl := Option.some.inj h
      exact ⟨by simpa using hc, fun n hn hlt => by omega⟩

/-! ## The bandwidth and the delay over the distance -/

namespace LinkQualityModelWiFiLinear

variable {bandwidth : Option ℚ} {r r₁ r₂ : ℤ}

theorem shifted_mono (h : r₁ ≤ r₂) : shifted r₁ ≤ shifted r₂ := by
  have hcast : (r₁ : ℚ) ≤ r₂ := Int.cast_le.2 h
  unfold shifted
  linarith

theorem connected_iff : (distance2LinkQuality bandwidth r).1 = true ↔
    -1 ≤ r ∧ 1000 ≤ bandwidthAt bandwidth r := by
  have hsign : 0 ≤ r + 1 ∧ 0 ≤ shifted r ↔ -1 ≤ r := by
    refine ⟨fun h => by omega, fun h => ⟨by omega, ?_⟩⟩
    have hcast : ((-1 : ℤ) : ℚ) ≤ r := Int.cast_le.2 h
    rw [Int.cast_neg, Int.cast_one] at hcast
    unfold shifted
    linarith
  unfold distance2LinkQuality
  split
  next h => simp [hsign.1 h]
  next h => simp [mt hsign.2 h]

theorem bandwidthAt_anti (hmax : 0 ≤ maxBandwidth bandwidth) (h : r₁ ≤ r₂) :
    bandwidthAt bandwidth r₂ ≤ bandwidthAt bandwidth r₁ := by
  have hs := shifted_mono h
  unfold bandwidthAt
  split
  next h₂ =>
    split
    next h₁ => exact div_le_div_of_nonneg_left hmax (by linarith) hs
    next => exact div_le_self hmax (le_of_lt h₂)
  next h₂ => rw [if_neg fun h₁ => h₂ (lt_of_lt_of_le h₁ hs)]

theorem maxBandwidth_pos (h : 0 < bandwidthAt bandwidth r) : 0 < maxBandwidth bandwidth := by
  unfold bandwidthAt at h
  split at h
  next h₁ => exact (div_pos_iff_of_pos_right (by linarith)).1 h
  next => exact h

theorem delayConst_mono (h : r₁ ≤ r₂) : delayConst r₁ ≤ delayConst r₂ := by
  have hs := shifted_mono h
  unfold delayConst
  split
  next h₁ =>
    rw [if_pos (lt_of_lt_of_le h₁ hs)]
    linarith
  next =>
    split
    · linarith
    · exact le_rfl

/-- In front of the first node everything is as far as the distance 0. -/
theorem bandwidthAt_neg_one : bandwidthAt bandwidth (-1) = maxBandwidth bandwidth := by
  unfold bandwidthAt
  rw [if_neg]
  unfold shifted
  norm_num

end LinkQualityModelWiFiLinear

namespace LinkQualityModelWiFiExponential

variable {bandwidth : Option ℚ} {r r₁ r₂ : ℤ}

theorem one_le_bandwidthDivisor (r : ℤ) : 1 ≤ bandwidthDivisor r :=
  one_le_pow₀ (by norm_num)

theorem bandwidthDivisor_mono (h : r₁ ≤ r₂) : bandwidthDivisor r₁ ≤ bandwidthDivisor r₂ := by
  unfold bandwidthDivisor
  exact pow_le_pow_right₀ (by norm_num) (Int.toNat_le_toNat (Int.ediv_le_ediv (by omega) h))

theorem connected_iff : (distance2LinkQuality bandwidth r).1 = true ↔
    0 ≤ r ∧ 1000 ≤ bandwidthAt bandwidth r := by
  unfold distance2LinkQuality
  split
  next h => simp [h]
  next h => simp [h]

theorem bandwidthAt_anti (hmax : 0 ≤ maxBandwidth bandwidth) (h : r₁ ≤ r₂) :
    bandwidthAt bandwidth r₂ ≤ bandwidthAt bandwidth r₁ := by
  have hd := bandwidthDivisor_mono h
  have hone := one_le_bandwidthDivisor r₁
  unfold bandwidthAt
  split
  next h₂ =>
    split
    next h₁ => exact div_le_div_of_nonneg_left hmax (by linarith) hd
    next => exact div_le_self hmax (one_le_bandwidthDivisor r₂)
  next h₂ => rw [if_neg fun h₁ => h₂ (h₁.trans h)]

theorem maxBandwidth_pos (h : 0 < bandwidthAt bandwidth r) : 0 < maxBandwidth bandwidth := by
  have hone := one_le_bandwidthDivisor r
  unfold bandwidthAt at h
  split at h
  next => exact (div_pos_iff_of_pos_right (by linarith)).1 h
  next => exact h

end LinkQualityModelWiFiExponential

/-- The WiFi models. -/
inductive WiFiModel where
  | linear | exponential
deriving DecidableEq, Repr

namespace WiFiModel

def cls : WiFiModel → LinkQualityModelClass
  | .linear => .wifiLinear
  | .exponential => .wifiExponential

/-- The bandwidth at a distance. -/
def bandwidthAt (w : WiFiModel) (bandwidth : Option ℚ) (d : ℚ) : ℚ :=
  match w with
  | .linear => LinkQualityModelWiFiLinear.bandwidthAt bandwidth (roundHalfEven d)
  | .exponential => LinkQualityModelWiFiExponential.bandwidthAt bandwidth (roundHalfEven d)

/-- The delay at a distance, in ms. -/
def delayConst (w : WiFiModel) (d : ℚ) : ℚ :=
  match w with
  | .linear => LinkQualityModelWiFiLinear.delayConst (roundHalfEven d)
  | .exponential => LinkQualityModelWiFiExponential.delayConst (roundHalfEven d)

variable {w : WiFiModel} {bandwidth : Option ℚ}

/-- What the models put into the link quality. -/
theorem linkQuality_eq (w : WiFiModel) (bandwidth : Option ℚ) {d : ℚ} (h : 0 ≤ d) :
    ((w.cls.model bandwidth).distance2LinkQuality d).2 =
      some (withBandwidthAndDelay (w.bandwidthAt bandwidth d) (w.delayConst d)) := by
  have hr := roundHalfEven_nonneg h
  have hcast : (0 : ℚ) ≤ roundHalfEven d := Int.cast_nonneg hr
  cases w with
  | linear =>
    have hs : 0 ≤ LinkQualityModelWiFiLinear.shifted (roundHalfEven d) := by
      unfold LinkQualityModelWiFiLinear.shifted
      linarith
    show (LinkQualityModelWiFiLinear.distance2LinkQuality bandwidth (roundHalfEven d)).2 = _
    unfold LinkQualityModelWiFiLinear.distance2LinkQuality
    rw [if_pos ⟨by omega, hs⟩]
    rfl
  | exponential =>
    show (LinkQualityModelWiFiExponential.distance2LinkQuality bandwidth (roundHalfEven d)).2 = _
    unfold LinkQualityModelWiFiExponential.distance2LinkQuality
    rw [if_pos hr]
    rfl

theorem le_bandwidthAt {d : ℚ} (h : (w.cls.model bandwidth).connected d = true) :
    1000 ≤ w.bandwidthAt bandwidth d := by
  cases w with
  | linear => exact (LinkQualityModelWiFiLinear.connected_iff.1 h).2
  | exponential => exact (LinkQualityModelWiFiExponential.connected_iff.1 h).2

theorem connected_of_le {d : ℚ} (h : 0 ≤ d) (hb : 1000 ≤ w.bandwidthAt bandwidth d) :
    (w.cls.model bandwidth).connected d = true := by
  have hr := roundHalfEven_nonneg h
  cases w with
  | linear => exact LinkQualityModelWiFiLinear.connected_iff.2 ⟨by omega, hb⟩
  | exponential => exact LinkQualityModelWiFiExponential.connected_iff.2 ⟨hr, hb⟩

/-- What is connected has a bandwidth that is not negative. -/
theorem maxBandwidth_nonneg {d : ℚ} (h : (w.cls.model bandwidth).connected d = true) :
    0 ≤ maxBandwidth bandwidth := by
  have hb := le_bandwidthAt h
  cases w with
  | linear => exact le_of_lt (LinkQualityModelWiFiLinear.maxBandwidth_pos (lt_of_lt_of_le (by norm_num) hb))
  | exponential =>
    exact le_of_lt (LinkQualityModelWiFiExponential.maxBandwidth_pos (lt_of_lt_of_le (by norm_num) hb))

theorem bandwidthAt_anti (hmax : 0 ≤ maxBandwidth bandwidth) {d₁ d₂ : ℚ} (h : d₁ ≤ d₂) :
    w.bandwidthAt bandwidth d₂ ≤ w.bandwidthAt bandwidth d₁ := by
  cases w with
  | linear => exact LinkQualityModelWiFiLinear.bandwidthAt_anti hmax (roundHalfEven_mono h)
  | exponential => exact LinkQualityModelWiFiExponential.bandwidthAt_anti hmax (roundHalfEven_mono h)

theorem delayConst_mono {d₁ d₂ : ℚ} (h : d₁ ≤ d₂) : w.delayConst d₁ ≤ w.delayConst d₂ := by
  cases w with
  | linear => exact LinkQualityModelWiFiLinear.delayConst_mono (roundHalfEven_mono h)
  | exponential => exact LinkQualityModelWiFiExponential.bandwidthDivisor_mono (roundHalfEven_mono h)

/-- What is connected stays connected when the nodes come closer. -/
theorem connected_anti {d₁ d₂ : ℚ} (h0 : 0 ≤ d₁) (h : d₁ ≤ d₂)
    (hc : (w.cls.model bandwidth).connected d₂ = true) :
    (w.cls.model bandwidth).connected d₁ = true :=
  connected_of_le h0 ((le_bandwidthAt hc).trans (bandwidthAt_anti (maxBandwidth_nonneg hc) h))

/-- **The WiFi models get worse with the distance**: they connect no more, grant no more
bandwidth and add no less delay. A link quality holds the bandwidth as a number and the
delay as a text. -/
theorem wifi_monotone (w : WiFiModel) (bandwidth : Option ℚ) {d₁ d₂ : ℚ} (h0 : 0 ≤ d₁)
    (h : d₁ ≤ d₂) :
    (((w.cls.model bandwidth).connected d₂ = true → (w.cls.model bandwidth).connected d₁ = true) ∧
      ((w.cls.model bandwidth).connected d₂ = true ∨ 0 ≤ maxBandwidth bandwidth →
        w.bandwidthAt bandwidth d₂ ≤ w.bandwidthAt bandwidth d₁) ∧
      w.delayConst d₁ ≤ w.delayConst d₂) ∧
    ∀ d, 0 ≤ d → ∃ q, ((w.cls.model bandwidth).distance2LinkQuality d).2 = some q ∧
      q.get .bandwidth = .num (w.bandwidthAt bandwidth d) ∧
      q.get .delay = .text (delayCmd (w.delayConst d)) := by
  refine ⟨⟨connected_anti h0 h, fun hc => ?_, delayConst_mono h⟩, fun d hd => ?_⟩
  · rcases hc with hc | hmax
    · exact bandwidthAt_anti (maxBandwidth_nonneg hc) h
    · exact bandwidthAt_anti hmax h
  · exact ⟨_, linkQuality_eq w bandwidth hd, get_bandwidth _ _, get_delay _ _⟩

/-- The linear model at the distances 2 and 7/2. -/
theorem wifi_monotone_linear :
    ((((WiFiModel.linear.cls.model none).connected (7 / 2) = true →
        (WiFiModel.linear.cls.model none).connected 2 = true) ∧
      ((WiFiModel.linear.cls.model none).connected (7 / 2) = true ∨ 0 ≤ maxBandwidth none →
        WiFiModel.linear.bandwidthAt none (7 / 2) ≤ WiFiModel.linear.bandwidthAt none 2) ∧
      WiFiModel.linear.delayConst 2 ≤ WiFiModel.linear.delayConst (7 / 2))) ∧
    ∀ d, 0 ≤ d → ∃ q, ((WiFiModel.linear.cls.model none).distance2LinkQuality d).2 = some q ∧
      q.get .bandwidth = .num (WiFiModel.linear.bandwidthAt none d) ∧
      q.get .delay = .text (delayCmd (WiFiModel.linear.delayConst d)) :=
  wifi_monotone .linear none (by norm_num) (by norm_num)

end WiFiModel

/-! ## The maximum connected distance is right -/

/-- From 0 on, a distance is connected if a greater one is. -/
theorem isConnected_anti (cls : LinkQualityModelClass) (bandwidth : Option ℚ) {r₁ r₂ : ℤ}
    (h0 : 0 ≤ r₁) (h : r₁ ≤ r₂) (hc : cls.isConnected bandwidth r₂ = true) :
    cls.isConnected bandwidth r₁ = true := by
  have h0' : (0 : ℚ) ≤ r₁ := Int.cast_nonneg h0
  have h' : (r₁ : ℚ) ≤ r₂ := Int.cast_le.2 h
  have hround : ∀ r : ℤ, (cls.model bandwidth).connected r = cls.isConnected bandwidth r := by
    intro r
    show (cls.distance2LinkQuality bandwidth (roundHalfEven r)).1 = _
    rw [roundHalfEven_intCast]
    rfl
  rw [← hround] at hc ⊢
  cases cls with
  | range =>
    rw [hround] at hc ⊢
    unfold LinkQualityModelClass.isConnected LinkQualityModelClass.distance2LinkQuality
      LinkQualityModelRange.distance2LinkQuality at hc ⊢
    dsimp only at hc ⊢
    split at hc
    next hr => rw [if_pos (show 0 ≤ r₁ ∧ r₁ < 30 by omega)]
    next => exact absurd hc (by simp)
  | wifiLinear => exact WiFiModel.connected_anti (w := .linear) h0' h' hc
  | wifiExponential => exact WiFiModel.connected_anti (w := .exponential) h0' h' hc

/-- Below 0 only the linear model connects anything, and only at -1. -/
theorem isConnected_neg_iff (cls : LinkQualityModelClass) (bandwidth : Option ℚ) {r : ℤ}
    (h : r < 0) : cls.isConnected bandwidth r = true ↔
      cls = .wifiLinear ∧ 1000 ≤ maxBandwidth bandwidth ∧ r = -1 := by
  cases cls with
  | range =>
    unfold LinkQualityModelClass.isConnected LinkQualityModelClass.distance2LinkQuality
      LinkQualityModelRange.distance2LinkQuality
    dsimp only
    rw [if_neg (by omega)]
    simp
  | wifiLinear =>
    refine LinkQualityModelWiFiLinear.connected_iff.trans ?_
    constructor
    · rintro ⟨hr, hb⟩
      obtain rfl : r = -1 := by omega
      rw [LinkQualityModelWiFiLinear.bandwidthAt_neg_one] at hb
      exact ⟨rfl, hb, rfl⟩
    · rintro ⟨-, hb, rfl⟩
      rw [LinkQualityModelWiFiLinear.bandwidthAt_neg_one]
      exact ⟨le_rfl, hb⟩
  | wifiExponential =>
    refine LinkQualityModelWiFiExponential.connected_iff.trans (iff_of_false (fun hc => ?_) (by simp))
    omega

/-- **When a model keeps to its maximum connected distance**: always but at the distance
-1 in the linear model, which is connected there when anything is. -/
theorem connected_iff_below_max (m : LoadedLinkQualityModel) (d : ℚ) :
    (m.connected d = true ↔
      0 ≤ roundHalfEven d ∧ roundHalfEven d < m.maxConnectedDistance) ↔
    ¬ (m.cls = .wifiLinear ∧ 1000 ≤ maxBandwidth m.bandwidth ∧
      roundHalfEven d = unlimitedDistance) := by
  have hm : m.connected d = m.cls.isConnected m.bandwidth (roundHalfEven d) := rfl
  obtain ⟨hM, hbelow⟩ := firstUnconnected_spec m.precalculated
  rw [hm]
  rcases lt_or_ge (roundHalfEven d) 0 with hneg | hpos
  · rw [isConnected_neg_iff m.cls m.bandwidth hneg]
    have hfalse : ¬ (0 ≤ roundHalfEven d ∧ roundHalfEven d < m.maxConnectedDistance) := by omega
    simp only [hfalse, iff_false]
    exact Iff.rfl
  · have hne : roundHalfEven d ≠ unlimitedDistance := by
      unfold unlimitedDistance
      omega
    refine iff_of_true ?_ fun h => hne h.2.2
    obtain ⟨n, hn⟩ := Int.eq_ofNat_of_zero_le hpos
    rw [hn]
    constructor
    · intro hc
      refine ⟨by omega, ?_⟩
      by_contra hge
      have hle : ((m.maxConnectedDistance : Nat) : ℤ) ≤ (n : ℤ) := by omega
      rw [isConnected_anti m.cls m.bandwidth (by omega) hle hc] at hM
      exact absurd hM (by simp)
    · rintro ⟨-, hlt⟩
      exact hbelow n (Nat.zero_le n) (by omega)

/-- The linear model with the default bandwidth. -/
def defaultLinearModel : LoadedLinkQualityModel where
  cls := .wifiLinear
  bandwidth := none
  maxConnectedDistance := 108
  precalculated := by decide +kernel

/-- It connects nodes at the unlimited distance. -/
theorem unlimited_connected : ¬ (defaultLinearModel.connected unlimitedDistance = true ↔
    0 ≤ roundHalfEven unlimitedDistance ∧
      roundHalfEven unlimitedDistance < defaultLinearModel.maxConnectedDistance) := by
  decide +kernel

end MiniWorld.Network
