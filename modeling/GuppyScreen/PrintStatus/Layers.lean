import GuppyScreen.Lib.Double
import GuppyScreen.PrintStatus

/-!
# The layer counter (print_status_panel.cpp)

`update_layers` shows the current layer out of the layers there are. Each of the two
is what Klipper reports, or else comes from the metadata of the file. The heights are
doubles, and every operation on them rounds.
-/

namespace GuppyScreen.PrintStatus
open Lib KUtils

inductive Fault where
  | wrongType
  | divisionByZero
  deriving DecidableEq

def getInt (v : Json) : Except Fault ℤ := (asInt v).elim (.error .wrongType) .ok

def getDouble (v : Json) : Except Fault ℚ := (double? v).elim (.error .wrongType) .ok

def FitsInt (n : ℤ) : Prop := -2 ^ 31 ≤ n ∧ n < 2 ^ 31

instance (n : ℤ) : Decidable (FitsInt n) := inferInstanceAs (Decidable (_ ∧ _))

/-- The layers up to a height, before they are rounded up to whole ones. -/
def layersTo (height first layer : ℚ) : ℚ :=
  Double.rnd (Double.rnd (Double.rnd (height - first) / layer) + 1)

-- 44 layers of 0.2 in decimals.
example : ⌈layersTo (Double.rnd (88 / 10)) (Double.rnd (2 / 10)) (Double.rnd (2 / 10))⌉ = 45 := by
  decide +kernel

section
variable (overflow : ℤ → ℤ)

/-- `static_cast<int>` of a whole double; what becomes of one that does not fit is open. -/
def castInt (n : ℤ) : ℤ := if FitsInt n then n else overflow n

def layerAt (height first layer : ℚ) : Except Fault ℤ :=
  if layer = 0 then .error .divisionByZero
  else .ok (castInt overflow ⌈layersTo height first layer⌉)

def maxLayer (info file : Json) : Except Fault ℤ :=
  let total := info.valueAt ["total_layer"]
  let count := file.valueAt ["layer_count"]
  let first := file.valueAt ["first_layer_height"]
  let layer := file.valueAt ["layer_height"]
  let object := file.valueAt ["object_height"]
  if total ≠ .null then getInt total
  else if count ≠ .null then getInt count
  else if first ≠ .null ∧ layer ≠ .null ∧ object ≠ .null then do
    let n ← layerAt overflow (← getDouble object) (← getDouble first) (← getDouble layer)
    .ok (if n > 0 then n else 0)
  else .ok 0

def currentLayer (s : State) (info file : Json) : Except Fault ℤ :=
  let current := info.valueAt ["current_layer"]
  let pd := s.getData ["printer_state", "print_stats", "print_duration"]
  let zpos := s.getData ["printer_state", "gcode_move", "gcode_position", "2"]
  let first := file.valueAt ["first_layer_height"]
  let layer := file.valueAt ["layer_height"]
  if current ≠ .null then getInt current
  else if file = .null ∨ pd = .null then .ok 0
  else do
    let duration ← getInt pd
    if duration > 0 ∧ zpos ≠ .null ∧ first ≠ .null ∧ layer ≠ .null then
      let n ← layerAt overflow (← getDouble zpos) (← getDouble first) (← getDouble layer)
      let total ← maxLayer overflow info file
      .ok (if n > total then total else if n > 0 then n else 0)
    else .ok 0

end

/-! ### What is reported -/

def Numeric (v : Json) : Prop := v = .null ∨ v.isNumber = true

def int? (v : Json) : Option ℤ := if v.isNumber then some (toInt v) else none

theorem getInt_of_int? {v : Json} {n : ℤ} (h : int? v = some n) : getInt v = .ok n ∧ v ≠ .null := by
  cases v <;> simp_all [int?, getInt, asInt, Json.isNumber]

theorem int?_eq_none {v : Json} (hv : Numeric v) (h : int? v = none) : v = .null := by
  cases v <;> simp_all [int?, Numeric, Json.isNumber]

theorem getDouble_of_double? {v : Json} {q : ℚ} (h : double? v = some q) :
    getDouble v = .ok q ∧ v ≠ .null := by
  refine ⟨?_, ?_⟩
  · rw [getDouble, h]
    rfl
  · rintro rfl
    cases h

theorem double?_eq_none {v : Json} (hv : Numeric v) (h : double? v = none) : v = .null := by
  cases v <;> simp_all [double?, Json.number?, Numeric, Json.isNumber]

theorem isSome_of_ne {v : Json} (hv : Numeric v) (h : v ≠ .null) : (double? v).isSome = true := by
  cases hn : double? v with
  | none => exact absurd (double?_eq_none hv hn) h
  | some q => rfl

/-- Every field that is read is a number where it is there. -/
structure Typed (s : State) (info file : Json) : Prop where
  total : Numeric (info.valueAt ["total_layer"])
  current : Numeric (info.valueAt ["current_layer"])
  count : Numeric (file.valueAt ["layer_count"])
  first : Numeric (file.valueAt ["first_layer_height"])
  layer : Numeric (file.valueAt ["layer_height"])
  object : Numeric (file.valueAt ["object_height"])
  duration : Numeric (s.getData ["printer_state", "print_stats", "print_duration"])
  z : Numeric (s.getData ["printer_state", "gcode_move", "gcode_position", "2"])

section
variable {overflow : ℤ → ℤ} {s : State} {info file : Json}

/-- `max_layer` comes to the height estimate. -/
structure EstimatesMax (info file : Json) : Prop where
  total : int? (info.valueAt ["total_layer"]) = none
  count : int? (file.valueAt ["layer_count"]) = none
  first : (double? (file.valueAt ["first_layer_height"])).isSome = true
  layer : (double? (file.valueAt ["layer_height"])).isSome = true
  object : (double? (file.valueAt ["object_height"])).isSome = true

/-- So does `current_layer`. -/
structure EstimatesCurrent (s : State) (info file : Json) : Prop where
  current : int? (info.valueAt ["current_layer"]) = none
  duration : ∃ n > 0, int? (s.getData ["printer_state", "print_stats", "print_duration"]) = some n
  z : (double? (s.getData ["printer_state", "gcode_move", "gcode_position", "2"])).isSome = true
  first : (double? (file.valueAt ["first_layer_height"])).isSome = true
  layer : (double? (file.valueAt ["layer_height"])).isSome = true

/-- The layers that the metadata gives: its count, or one from the heights, or 0. -/
def fileLayers (overflow : ℤ → ℤ) (file : Json) : ℤ :=
  match int? (file.valueAt ["layer_count"]) with
  | some n => n
  | none =>
    match double? (file.valueAt ["object_height"]),
      double? (file.valueAt ["first_layer_height"]),
      double? (file.valueAt ["layer_height"]) with
    | some height, some first, some layer => max 0 (castInt overflow ⌈layersTo height first layer⌉)
    | _, _, _ => 0

theorem maxLayer_of_total {t : ℤ} (h : int? (info.valueAt ["total_layer"]) = some t) :
    maxLayer overflow info file = .ok t := by
  obtain ⟨hget, hne⟩ := getInt_of_int? h
  rw [maxLayer, if_pos hne, hget]

theorem maxLayer_of_file (ht : Typed s info file) (h : int? (info.valueAt ["total_layer"]) = none)
    (hlayer : EstimatesMax info file → double? (file.valueAt ["layer_height"]) ≠ some 0) :
    maxLayer overflow info file = .ok (fileLayers overflow file) := by
  have htotal := int?_eq_none ht.total h
  unfold maxLayer fileLayers
  dsimp only
  rw [if_neg (not_not.mpr htotal)]
  cases hcount : int? (file.valueAt ["layer_count"]) with
  | some n =>
    obtain ⟨hget, hne⟩ := getInt_of_int? hcount
    rw [if_pos hne, hget]
  | none =>
    rw [if_neg (not_not.mpr (int?_eq_none ht.count hcount))]
    dsimp only
    cases ho : double? (file.valueAt ["object_height"]) with
    | none => rw [if_neg fun hb => hb.2.2 (double?_eq_none ht.object ho)]
    | some o =>
      cases hf : double? (file.valueAt ["first_layer_height"]) with
      | none => rw [if_neg fun hb => hb.1 (double?_eq_none ht.first hf)]
      | some f =>
        cases hl : double? (file.valueAt ["layer_height"]) with
        | none => rw [if_neg fun hb => hb.2.1 (double?_eq_none ht.layer hl)]
        | some l =>
          have hne : l ≠ 0 := by
            intro hzero
            apply hlayer ⟨h, hcount, by rw [hf]; rfl, by rw [hl]; rfl, by rw [ho]; rfl⟩
            rw [hl, hzero]
          rw [if_pos ⟨(getDouble_of_double? hf).2, (getDouble_of_double? hl).2,
            (getDouble_of_double? ho).2⟩, (getDouble_of_double? hf).1, (getDouble_of_double? hl).1,
            (getDouble_of_double? ho).1]
          simp only [bind, Except.bind, layerAt, if_neg hne]
          congr 1
          split_ifs <;> omega

theorem maxLayer_divides (h : EstimatesMax info file)
    (hzero : double? (file.valueAt ["layer_height"]) = some 0) (ht : Typed s info file) :
    maxLayer overflow info file = .error .divisionByZero := by
  obtain ⟨f, hf⟩ := Option.isSome_iff_exists.mp h.first
  obtain ⟨o, ho⟩ := Option.isSome_iff_exists.mp h.object
  obtain ⟨hfirst, hfne⟩ := getDouble_of_double? hf
  obtain ⟨hobject, hone⟩ := getDouble_of_double? ho
  obtain ⟨hlayer, hlne⟩ := getDouble_of_double? hzero
  unfold maxLayer
  dsimp only
  rw [if_neg (not_not.mpr (int?_eq_none ht.total h.total)),
    if_neg (not_not.mpr (int?_eq_none ht.count h.count)), if_pos ⟨hfne, hlne, hone⟩,
    hfirst, hobject, hlayer]
  rfl

theorem currentLayer_of_info {c : ℤ} (h : int? (info.valueAt ["current_layer"]) = some c) :
    currentLayer overflow s info file = .ok c := by
  obtain ⟨hget, hne⟩ := getInt_of_int? h
  rw [currentLayer, if_pos hne, hget]

theorem currentLayer_eq (h : EstimatesCurrent s info file) (ht : Typed s info file) :
    ∃ z first layer : ℚ, double? (file.valueAt ["layer_height"]) = some layer ∧
      currentLayer overflow s info file = (layerAt overflow z first layer).bind fun n =>
        (maxLayer overflow info file).map fun total =>
          if n > total then total else if n > 0 then n else 0 := by
  obtain ⟨n, hpos, hn⟩ := h.duration
  obtain ⟨z, hz⟩ := Option.isSome_iff_exists.mp h.z
  obtain ⟨f, hf⟩ := Option.isSome_iff_exists.mp h.first
  obtain ⟨l, hl⟩ := Option.isSome_iff_exists.mp h.layer
  obtain ⟨hpd, hpdne⟩ := getInt_of_int? hn
  obtain ⟨hzpos, hzne⟩ := getDouble_of_double? hz
  obtain ⟨hfirst, hfne⟩ := getDouble_of_double? hf
  obtain ⟨hlayer, hlne⟩ := getDouble_of_double? hl
  have hfile : file ≠ .null := by
    rintro rfl
    exact hfne rfl
  refine ⟨z, f, l, hl, ?_⟩
  unfold currentLayer
  dsimp only
  rw [if_neg (not_not.mpr (int?_eq_none ht.current h.current)),
    if_neg (not_or.mpr ⟨hfile, hpdne⟩), hpd]
  simp only [bind, Except.bind]
  rw [if_pos ⟨hpos, hzne, hfne, hlne⟩, hzpos, hfirst, hlayer]
  dsimp only
  cases layerAt overflow z f l with
  | error e => rfl
  | ok k => cases maxLayer overflow info file <;> rfl

theorem currentLayer_zero (hcurrent : int? (info.valueAt ["current_layer"]) = none)
    (h : ¬ EstimatesCurrent s info file) (ht : Typed s info file) :
    currentLayer overflow s info file = .ok 0 := by
  unfold currentLayer
  dsimp only
  rw [if_neg (not_not.mpr (int?_eq_none ht.current hcurrent))]
  split_ifs with hnone
  · rfl
  · cases hpd : int? (s.getData ["printer_state", "print_stats", "print_duration"]) with
    | none => exact absurd (.inr (int?_eq_none ht.duration hpd)) hnone
    | some n =>
      rw [(getInt_of_int? hpd).1]
      simp only [bind, Except.bind]
      refine if_neg ?_
      rintro ⟨hpos, hz, hf, hl⟩
      apply h
      refine ⟨hcurrent, ⟨n, hpos, hpd⟩, ?_, ?_, ?_⟩
      · exact isSome_of_ne ht.z hz
      · exact isSome_of_ne ht.first hf
      · exact isSome_of_ne ht.layer hl

end

/-! ### The pair shown -/

/-- What Klipper reports is not negative, and ordered where both are there. -/
structure Proper (info : Json) : Prop where
  total : ∀ t, int? (info.valueAt ["total_layer"]) = some t → 0 ≤ t
  current : ∀ c, int? (info.valueAt ["current_layer"]) = some c → 0 ≤ c
  ordered : ∀ t c, int? (info.valueAt ["total_layer"]) = some t →
    int? (info.valueAt ["current_layer"]) = some c → c ≤ t

def ShowsLayers (overflow : ℤ → ℤ) (s : State) (info file : Json) : Prop :=
  ∃ current max, currentLayer overflow s info file = .ok current ∧
    maxLayer overflow info file = .ok max ∧
    (Proper info → 0 ≤ current ∧ current ≤ max)

/-- Where a layer is estimated, the layer height is not 0. -/
def HeightUsable (s : State) (info file : Json) : Prop :=
  EstimatesMax info file ∨ EstimatesCurrent s info file →
    double? (file.valueAt ["layer_height"]) ≠ some 0

/-- The heights have room for layer `c`: more than `c - 1` layers go up to the object's. -/
def HeightsReach (overflow : ℤ → ℤ) (file : Json) (c : ℤ) : Prop :=
  ∃ object first layer, double? (file.valueAt ["object_height"]) = some object ∧
    double? (file.valueAt ["first_layer_height"]) = some first ∧
    double? (file.valueAt ["layer_height"]) = some layer ∧
    if FitsInt ⌈layersTo object first layer⌉ then (c : ℚ) - 1 < layersTo object first layer
    else c ≤ overflow ⌈layersTo object first layer⌉

/-- Without a reported total the reported layer is within the metadata's count, or without
one within its heights. Where no layer is reported the count is not negative. -/
structure Covered (overflow : ℤ → ℤ) (info file : Json) : Prop where
  counted : ∀ c n, int? (info.valueAt ["current_layer"]) = some c →
    int? (file.valueAt ["layer_count"]) = some n → c ≤ n
  measured : ∀ c, int? (info.valueAt ["current_layer"]) = some c → 0 < c →
    int? (file.valueAt ["layer_count"]) = none → HeightsReach overflow file c
  unreported : ∀ n, int? (info.valueAt ["current_layer"]) = none →
    int? (file.valueAt ["layer_count"]) = some n → 0 ≤ n

section
variable {overflow : ℤ → ℤ} {file : Json}

theorem fileLayers_of_count {n : ℤ} (h : int? (file.valueAt ["layer_count"]) = some n) :
    fileLayers overflow file = n := by
  rw [fileLayers, h]

theorem fileLayers_nonneg (h : int? (file.valueAt ["layer_count"]) = none) :
    0 ≤ fileLayers overflow file := by
  rw [fileLayers, h]
  dsimp only
  split <;> omega

theorem heightsReach_iff {c : ℤ} (hc : 0 < c) (h : int? (file.valueAt ["layer_count"]) = none) :
    HeightsReach overflow file c ↔ c ≤ fileLayers overflow file := by
  unfold HeightsReach fileLayers
  rw [h]
  dsimp only
  split
  · rename_i object first layer ho hf hl
    have hcast : (if FitsInt ⌈layersTo object first layer⌉ then
        (c : ℚ) - 1 < layersTo object first layer
        else c ≤ overflow ⌈layersTo object first layer⌉) ↔
        c ≤ castInt overflow ⌈layersTo object first layer⌉ := by
      unfold castInt
      split_ifs
      · exact Int.le_ceil_iff.symm
      · exact Iff.rfl
    constructor
    · rintro ⟨object', first', layer', ho', hf', hl', hreach⟩
      rw [ho, Option.some_inj] at ho'
      rw [hf, Option.some_inj] at hf'
      rw [hl, Option.some_inj] at hl'
      subst ho' hf' hl'
      exact le_max_of_le_right (hcast.mp hreach)
    · intro hle
      refine ⟨object, first, layer, ho, hf, hl, hcast.mpr ?_⟩
      omega
  · rename_i hnone
    constructor
    · rintro ⟨object, first, layer, ho, hf, hl, -⟩
      exact absurd hl (hnone object first layer ho hf)
    · intro hle
      omega

theorem covered_iff {info : Json} : Covered overflow info file ↔
    (∀ c, int? (info.valueAt ["current_layer"]) = some c → c ≤ fileLayers overflow file) ∧
    (int? (info.valueAt ["current_layer"]) = none → 0 ≤ fileLayers overflow file) := by
  cases hcount : int? (file.valueAt ["layer_count"]) with
  | some n =>
    rw [fileLayers_of_count hcount]
    constructor
    · intro h
      exact ⟨fun c hc => h.counted c n hc hcount, fun hnone => h.unreported n hnone hcount⟩
    · rintro ⟨hreported, hunreported⟩
      refine ⟨?_, ?_, ?_⟩
      · intro c m hc hm
        rw [hcount, Option.some_inj] at hm
        exact hm ▸ hreported c hc
      · intro c _ _ hnone
        rw [hcount] at hnone
        cases hnone
      · intro m hnone hm
        rw [hcount, Option.some_inj] at hm
        exact hm ▸ hunreported hnone
  | none =>
    have hpos := @fileLayers_nonneg overflow file hcount
    constructor
    · intro h
      refine ⟨?_, fun _ => hpos⟩
      intro c hc
      by_cases hzero : 0 < c
      · exact (heightsReach_iff hzero hcount).mp (h.measured c hc hzero hcount)
      · omega
    · rintro ⟨hreported, -⟩
      refine ⟨?_, ?_, ?_⟩
      · intro c m _ hm
        rw [hcount] at hm
        cases hm
      · intro c hc hzero _
        exact (heightsReach_iff hzero hcount).mpr (hreported c hc)
      · intro m _ hm
        rw [hcount] at hm
        cases hm

end

section
variable {overflow : ℤ → ℤ} {s : State} {info file : Json} (ht : Typed s info file)

include ht

theorem heightUsable_of_shows (h : ShowsLayers overflow s info file) :
    HeightUsable s info file := by
  obtain ⟨current, max, hcurrent, hmax, -⟩ := h
  intro hestimates hzero
  rcases hestimates with hm | hc
  · rw [maxLayer_divides hm hzero ht] at hmax
    cases hmax
  · obtain ⟨z, first, layer, hl, heq⟩ := @currentLayer_eq overflow s info file hc ht
    rw [hzero, Option.some_inj] at hl
    rw [heq, layerAt, if_pos hl.symm] at hcurrent
    cases hcurrent

theorem maxLayer_ok (h : HeightUsable s info file) : ∃ max, maxLayer overflow info file = .ok max ∧
    (∀ t, int? (info.valueAt ["total_layer"]) = some t → max = t) ∧
    (int? (info.valueAt ["total_layer"]) = none → max = fileLayers overflow file) := by
  cases htotal : int? (info.valueAt ["total_layer"]) with
  | some t => exact ⟨t, maxLayer_of_total htotal, fun u hu => Option.some_inj.mp hu, nofun⟩
  | none =>
    exact ⟨_, maxLayer_of_file ht htotal fun he => h (.inl he), nofun, fun _ => rfl⟩

/-- An estimate ends between 0 and a total that is not negative. -/
theorem currentLayer_ok (h : HeightUsable s info file) {max : ℤ}
    (hmax : maxLayer overflow info file = .ok max)
    (hcurrent : int? (info.valueAt ["current_layer"]) = none) :
    ∃ n, currentLayer overflow s info file = .ok n ∧ (0 ≤ max → 0 ≤ n ∧ n ≤ max) := by
  by_cases hc : EstimatesCurrent s info file
  · obtain ⟨z, first, layer, hl, heq⟩ := @currentLayer_eq overflow s info file hc ht
    have hne : layer ≠ 0 := by
      intro hzero
      rw [hzero] at hl
      exact h (.inr hc) hl
    rw [heq, layerAt, if_neg hne, hmax]
    refine ⟨_, rfl, ?_⟩
    intro hpos
    dsimp only
    split_ifs <;> omega
  · exact ⟨0, currentLayer_zero hcurrent hc ht, fun hpos => ⟨le_refl 0, hpos⟩⟩

/-- The counter is well formed exactly if no estimate divides by a layer height of 0 and
the metadata covers what Klipper reports without a total. -/
theorem layers_well_formed_iff : ShowsLayers overflow s info file ↔ HeightUsable s info file ∧
    (Proper info → int? (info.valueAt ["total_layer"]) = none → Covered overflow info file) := by
  constructor
  · intro h
    have hheight := heightUsable_of_shows ht h
    refine ⟨hheight, ?_⟩
    intro hproper htotal
    obtain ⟨current, max, hcurrent, hmax, hbound⟩ := h
    obtain ⟨hlow, hhigh⟩ := hbound hproper
    obtain ⟨m, hm, -, hfile⟩ := @maxLayer_ok overflow s info file ht hheight
    have hmm : max = m := by
      rw [hm] at hmax
      cases hmax
      rfl
    have heq := hfile htotal
    refine covered_iff.mpr ⟨?_, ?_⟩
    · intro c hc
      rw [currentLayer_of_info hc] at hcurrent
      cases hcurrent
      omega
    · intro _
      omega
  · rintro ⟨hheight, hcovered⟩
    obtain ⟨max, hmax, htotal, hfile⟩ := @maxLayer_ok overflow s info file ht hheight
    cases hc : int? (info.valueAt ["current_layer"]) with
    | some c =>
      refine ⟨c, max, currentLayer_of_info hc, hmax, ?_⟩
      intro hproper
      refine ⟨hproper.current c hc, ?_⟩
      cases hu : int? (info.valueAt ["total_layer"]) with
      | some t =>
        have hle := hproper.ordered t c hu hc
        have heq := htotal t hu
        omega
      | none =>
        have hle := (covered_iff.mp (hcovered hproper hu)).1 c hc
        have heq := hfile hu
        omega
    | none =>
      obtain ⟨n, hn, hbound⟩ := currentLayer_ok ht hheight hmax hc
      refine ⟨n, max, hn, hmax, ?_⟩
      intro hproper
      apply hbound
      cases hu : int? (info.valueAt ["total_layer"]) with
      | some t =>
        have hpos := hproper.total t hu
        have heq := htotal t hu
        omega
      | none =>
        have hpos := (covered_iff.mp (hcovered hproper hu)).2 hc
        have heq := hfile hu
        omega

end

def noState : State := ⟨.obj .nil⟩

/-- Klipper reports the layer it is at, and no total. -/
def reportedAt (layer : ℤ) : Json := .obj (.cons "current_layer" (.int layer) .nil)

def threeLayers : Json := .obj (.cons "layer_count" (.int 3) .nil)

def noLayerHeight : Json :=
  .obj (.cons "first_layer_height" (.float (1 / 5)) (.cons "layer_height" (.int 0)
    (.cons "object_height" (.int 10) .nil)))

theorem typed_threeLayers (layer : ℤ) : Typed noState (reportedAt layer) threeLayers :=
  ⟨.inl rfl, .inr rfl, .inr rfl, .inl rfl, .inl rfl, .inl rfl, .inl rfl, .inl rfl⟩

theorem second_of_three : ShowsLayers id noState (reportedAt 2) threeLayers := by
  refine (layers_well_formed_iff (typed_threeLayers 2)).mpr ⟨?_, ?_⟩
  · rintro - hzero
    cases hzero
  · intro _ _
    have htwo : int? ((reportedAt 2).valueAt ["current_layer"]) = some 2 := by decide
    have hthree : int? (threeLayers.valueAt ["layer_count"]) = some 3 := by decide
    refine ⟨?_, ?_, ?_⟩
    · intro c n hc hn
      rw [htwo, Option.some_inj] at hc
      rw [hthree, Option.some_inj] at hn
      omega
    · intro c _ _ hnone
      rw [hthree] at hnone
      cases hnone
    · intro n hnone
      rw [htwo] at hnone
      cases hnone

/-- Layer 5 of 3, and a layer height of 0. -/
theorem layers_ill_formed : (¬ ∀ s info file, Typed s info file → ShowsLayers id s info file) ∧
    maxLayer id .null noLayerHeight = .error .divisionByZero := by
  refine ⟨?_, by decide +kernel⟩
  intro h
  obtain ⟨current, max, hcurrent, hmax, hbound⟩ := h _ _ _ (typed_threeLayers 5)
  have hfive : int? ((reportedAt 5).valueAt ["current_layer"]) = some 5 := by decide
  have hnone : int? ((reportedAt 5).valueAt ["total_layer"]) = none := by decide
  have hproper : Proper (reportedAt 5) := by
    refine ⟨?_, ?_, ?_⟩
    · intro t ht
      rw [hnone] at ht
      cases ht
    · intro c hc
      rw [hfive] at hc
      cases hc
      decide
    · intro t c ht
      rw [hnone] at ht
      cases ht
  have hthree : maxLayer id (reportedAt 5) threeLayers = .ok 3 := by decide
  rw [currentLayer_of_info hfive] at hcurrent
  rw [hthree] at hmax
  cases hcurrent
  cases hmax
  have hle := (hbound hproper).2
  omega

end GuppyScreen.PrintStatus
