import GuppyScreen.Config

/-!
# `Config::init` as a migration

Every access of `init` keeps what the file says, adds no null of its own and has
nothing left to do a second time. These are facts about one access each; a list
of accesses inherits them.
-/

namespace GuppyScreen.Config
open Lib Pointer Text

/-- What the backfill of the macros is prepared for. -/
def Fits (v : Json) : Prop := v = .null ∨ v.isObject = true

/-- An access that fills in an option and does nothing else. -/
structure Step.Fills (s : Step) : Prop where
  slash : Lacks '/' s.key
  tilde : Lacks '~' s.key
  index : arrayIndex s.key = none
  word : (s.key.toList.all Char.isDigit || s.key = "-") = false
  other : s.key ≠ "printers" ∧ s.key ≠ "default_printer" ∧ s.key ≠ "config_path"
  wf : ∀ v : Json, v.Wf → (s.act v).Wf
  keeps : ∀ v, (s.key = "default_macros" → Fits v) → Keeps v (s.act v)
  fresh : ∀ o : Option Json, Fresh o (s.act (o.getD .null))
  filled : ∀ v, s.act v ≠ .null
  again : ∀ v, s.act (s.act v) = s.act v
  stable : ∀ v w, s.act v = v → Keeps v w → s.act w = w
  macros : s.key = "default_macros" → s.place = .printer ∧ ∀ v, Fits v → Fits (s.act v)

theorem fill_of_ne {default v : Json} (h : v ≠ .null) : fill default v = v := if_neg h

theorem fill_ne_null {default : Json} (hd : default ≠ .null) (v : Json) :
    fill default v ≠ .null := by
  unfold fill
  split_ifs with hv
  · exact hd
  · exact hv

theorem fills_fill {place : Place} {key : String} {default : Json} (hd : nullFree default = true)
    (hwf : default.Wf) (hs : Lacks '/' key) (ht : Lacks '~' key) (hi : arrayIndex key = none)
    (hw : (key.toList.all Char.isDigit || key = "-") = false)
    (ho : key ≠ "printers" ∧ key ≠ "default_printer" ∧ key ≠ "config_path")
    (hm : key ≠ "default_macros") : Step.Fills ⟨place, key, fill default⟩ := by
  have hne : default ≠ .null := by
    rintro rfl
    cases hd
  refine ⟨hs, ht, hi, hw, ho, ?_, ?_, ?_, fill_ne_null hne, ?_, ?_, fun hkey => absurd hkey hm⟩
  · intro v hv
    show (fill default v).Wf
    unfold fill
    split_ifs
    · exact hwf
    · exact hv
  · intro v _
    show Keeps v (fill default v)
    unfold fill
    split_ifs with hv
    · rw [hv]
      exact keeps_null default
    · exact Keeps.refl v
  · intro o
    show Fresh o (fill default (o.getD .null))
    unfold fill
    split_ifs with hv
    · exact fresh_of_nullFree hd
    · exact fresh_self o hv
  · intro v
    exact fill_of_ne (fill_ne_null hne v)
  · intro v w hv hk
    have hv' : v ≠ .null := hv ▸ fill_ne_null hne v
    exact fill_of_ne (hk.root.ne_null hv')

/-! ### The macros -/

theorem fillMacros_cases (v : Json) :
    (v = .null ∧ fillMacros v = macrosConf.mergePatch cooldownConf) ∨
    (v ≠ .null ∧ (v.get? "cooldown").isSome = true ∧ fillMacros v = v) ∨
    (v ≠ .null ∧ (v.get? "cooldown").isSome = false ∧
      fillMacros v = v.set "cooldown" (.str cooldown)) := by
  by_cases hv : v = .null
  · subst hv
    exact Or.inl ⟨rfl, rfl⟩
  have heq : fillMacros v =
      if (v.get? "cooldown").isSome then v else v.mergePatch cooldownConf := by
    cases v with
    | null => exact absurd rfl hv
    | _ => rfl
  cases hc : (v.get? "cooldown").isSome with
  | true => exact Or.inr (Or.inl ⟨hv, rfl, by rw [heq, if_pos hc]⟩)
  | false => exact Or.inr (Or.inr ⟨hv, rfl, by rw [heq, hc]; rfl⟩)

theorem fillMacros_cooldown (v : Json) : ((fillMacros v).get? "cooldown").isSome = true := by
  rcases fillMacros_cases v with ⟨-, h⟩ | ⟨-, hc, h⟩ | ⟨-, -, h⟩
  · rw [h]
    decide
  · rw [h, hc]
  · rw [h, Json.get?_set_self]
    rfl

theorem ne_null_of_cooldown {v : Json} (h : (v.get? "cooldown").isSome = true) : v ≠ .null := by
  rintro rfl
  cases h

theorem fillMacros_of_cooldown {v : Json} (h : (v.get? "cooldown").isSome = true) :
    fillMacros v = v := by
  rcases fillMacros_cases v with ⟨hv, -⟩ | ⟨-, -, heq⟩ | ⟨-, hc, -⟩
  · exact absurd hv (ne_null_of_cooldown h)
  · exact heq
  · rw [h] at hc
    cases hc

theorem cooldown_of_keeps {v w : Json} (h : (v.get? "cooldown").isSome = true) (hk : Keeps v w) :
    (w.get? "cooldown").isSome = true := by
  obtain ⟨x, hx⟩ := Option.isSome_iff_exists.mp h
  have hobj : v.isObject = true := by
    cases v with
    | obj fs => rfl
    | _ => cases hx
  have hat : v.at? ["cooldown"] = some x := by
    rw [Json.at?_of_get? hx, Json.at?_nil]
  obtain ⟨y, hy, -⟩ := hk ["cooldown"] x hat
  have hw : w.isObject = true := by
    rcases hk.root with rfl | rfl | ⟨-, hw⟩
    · cases hobj
    · exact hobj
    · exact hw
  cases w with
  | obj fs =>
    rw [Json.at?_obj] at hy
    obtain ⟨z, hz, -⟩ := Option.bind_eq_some_iff.mp hy
    exact Option.isSome_iff_exists.mpr ⟨z, hz⟩
  | _ => cases hw

theorem fills_macros : Step.Fills ⟨.printer, "default_macros", fillMacros⟩ := by
  refine ⟨by decide, by decide, by decide, by decide, by decide, ?_, ?_, ?_, ?_, ?_, ?_, ?_⟩
  · intro v hv
    show (fillMacros v).Wf
    rcases fillMacros_cases v with ⟨-, h⟩ | ⟨-, -, h⟩ | ⟨-, -, h⟩
    · rw [h]
      decide
    · rw [h]
      exact hv
    · rw [h]
      exact Json.wf_set hv trivial
  · intro v hfit
    show Keeps v (fillMacros v)
    rcases fillMacros_cases v with ⟨hv, -⟩ | ⟨-, -, h⟩ | ⟨hv, hc, h⟩
    · rw [hv]
      exact keeps_null _
    · rw [h]
      exact Keeps.refl v
    · have hobj : v.isObject = true := (hfit rfl).resolve_left hv
      rw [h]
      cases v with
      | obj fs =>
        have hnone : fs.find? "cooldown" = none := by
          cases hf : fs.find? "cooldown" with
          | none => rfl
          | some x =>
            rw [show (Json.obj fs).get? "cooldown" = some x from hf] at hc
            cases hc
        refine keeps_insert ?_
        rw [hnone]
        exact keeps_null _
      | _ => cases hobj
  · intro o
    show Fresh o (fillMacros (o.getD .null))
    rcases fillMacros_cases (o.getD .null) with ⟨-, h⟩ | ⟨hv, -, h⟩ | ⟨hv, hc, h⟩
    · rw [h]
      exact fresh_of_nullFree (by decide)
    · rw [h]
      exact fresh_self o hv
    · rw [h]
      exact fresh_set o _ (by decide)
  · intro v
    exact ne_null_of_cooldown (fillMacros_cooldown v)
  · intro v
    exact fillMacros_of_cooldown (fillMacros_cooldown v)
  · intro v w hv hk
    have hc : (v.get? "cooldown").isSome = true := hv ▸ fillMacros_cooldown v
    exact fillMacros_of_cooldown (cooldown_of_keeps hc hk)
  · refine fun _ => ⟨rfl, fun v hv => ?_⟩
    show Fits (fillMacros v)
    rcases fillMacros_cases v with ⟨-, h⟩ | ⟨-, -, h⟩ | ⟨-, -, h⟩
    · rw [h]
      exact Or.inr rfl
    · rw [h]
      exact hv
    · rw [h]
      exact Or.inr rfl

theorem fills_seeds : ∀ s ∈ seeds, s.Fills := by
  intro s hs
  simp only [seeds, List.mem_cons, List.not_mem_nil, or_false] at hs
  rcases hs with rfl | rfl <;>
    exact fills_fill (by decide) (by decide) (by decide) (by decide) (by decide) (by decide)
      (by decide) (by decide)

theorem fills_backfill : ∀ s ∈ backfill, s.Fills := by
  intro s hs
  simp only [backfill, List.mem_cons, List.not_mem_nil, or_false] at hs
  rcases hs with rfl | rfl | rfl | rfl | rfl | rfl | rfl | rfl | rfl
  case inr.inr.inl => exact fills_macros
  all_goals
    exact fills_fill (by decide) (by decide) (by decide) (by decide) (by decide) (by decide)
      (by decide) (by decide)

theorem fills_screen (b : Build) : ∀ s ∈ screen b, s.Fills := by
  intro s hs
  simp only [screen, List.mem_cons, List.not_mem_nil, or_false] at hs
  rcases hs with rfl | rfl | rfl | rfl <;>
    exact fills_fill rfl trivial (by decide) (by decide) (by decide) (by decide) (by decide)
      (by decide)

/-! ### Where an access leads -/

def Step.tokens (name : String) (s : Step) : List String :=
  match s.place with
  | .top => [s.key]
  | .printer => ["printers", name, s.key]

theorem parse_top {df : String} {s : Step} (hplace : s.place = .top) (hs : Lacks '/' s.key)
    (ht : Lacks '~' s.key) : parse (s.text df) = some [s.key] := by
  have htext : s.text df =
      String.ofList ('/' :: ['/'].intercalate ([s.key].map String.toList)) := by
    unfold Step.text
    rw [hplace, ← String.toList_inj, String.toList_ofList]
    simp
  rw [htext]
  exact parse_tokens (by simp) (by simpa using hs) (by simpa using ht)

theorem parse_printer {name : String} {s : Step} (hplace : s.place = .printer)
    (hs : Lacks '/' s.key) (ht : Lacks '~' s.key) (hns : Lacks '/' name) (hnt : Lacks '~' name) :
    parse (s.text (dfOf name)) = some ["printers", name, s.key] := by
  have htext : s.text (dfOf name) = String.ofList
      ('/' :: ['/'].intercalate (["printers", name, s.key].map String.toList)) := by
    unfold Step.text dfOf
    rw [hplace, ← String.toList_inj, String.toList_ofList]
    simp
  rw [htext]
  refine parse_tokens (by simp) ?_ ?_
  · simp only [List.mem_cons, List.not_mem_nil, or_false, forall_eq_or_imp, forall_eq]
    exact ⟨by decide, hns, hs⟩
  · simp only [List.mem_cons, List.not_mem_nil, or_false, forall_eq_or_imp, forall_eq]
    exact ⟨by decide, hnt, ht⟩

/-! ### One access and many -/

/-- A configuration as the claims on `init` take it, with the printer its options
are filled in for. -/
structure Ready (df : Option String) (j : Json) : Prop where
  wf : j.Wf
  obj : j.isObject = true
  printers : (j.valueAt ["printers"]).isObject = true
  macros : ∀ name, df = some name → Fits (j.valueAt ["printers", name, "default_macros"])

theorem plain_top {j : Json} (h : j.isObject = true) (key : String) : Plain [key] j := by
  cases j with
  | obj fs => exact ⟨fs, rfl, trivial⟩
  | _ => cases h

theorem Ready.entry {df : Option String} {j : Json} (h : Ready df j) :
    ∃ fs ps, j = .obj fs ∧ fs.find? "printers" = some (.obj ps) := by
  have hp := h.printers
  cases j with
  | obj fs =>
    refine ⟨fs, ?_⟩
    rw [Json.valueAt, Json.at?_obj] at hp
    cases hf : fs.find? "printers" with
    | none => rw [hf] at hp; cases hp
    | some v =>
      rw [hf, Option.bind_some, Json.at?_nil] at hp
      cases v with
      | obj ps => exact ⟨ps, rfl, rfl⟩
      | _ => cases hp
  | _ => cases h.obj

theorem plain_printer {df : Option String} {j : Json} (h : Ready df j) {s : Step} (hs : s.Fills)
    {name : String}
    (hroom : (∃ k, upsert s.act ["printers", name, s.key] j = some k) ∨
      ∃ v, j.at? ["printers", name, s.key] = some v) : Plain ["printers", name, s.key] j := by
  obtain ⟨fs, ps, rfl, hps⟩ := h.entry
  refine ⟨fs, rfl, ?_⟩
  rw [hps]
  refine ⟨ps, rfl, ?_⟩
  rcases hroom with ⟨k, hk⟩ | ⟨v, hv⟩
  · rw [upsert_cons (show opened "printers" (.obj fs) = .obj fs from rfl), hps] at hk
    obtain ⟨k', hk', -⟩ := Option.map_eq_some_iff.mp hk
    rw [Option.getD_some, upsert_cons (show opened name (.obj ps) = .obj ps from rfl)] at hk'
    obtain ⟨x, hx, -⟩ := Option.map_eq_some_iff.mp hk'
    exact plain_of_upsert (by simpa using ⟨hs.index, hs.word⟩) hx
  · rw [Json.at?_obj, hps, Option.bind_some, Json.at?_obj] at hv
    obtain ⟨e, he, hev⟩ := Option.bind_eq_some_iff.mp hv
    rw [he]
    exact plain_of_at? hs.index hev

/-- An access that was made, and has nothing to do again. -/
structure Settled (name : String) (s : Step) (k : Json) : Prop where
  plain : Plain (s.tokens name) k
  value : ∃ v, k.at? (s.tokens name) = some v ∧ v ≠ .null ∧ s.act v = v

theorem Settled.again {name : String} {s : Step} {k : Json} (h : Settled name s k) (hk : k.Wf) :
    upsert s.act (s.tokens name) k = some k := by
  obtain ⟨v, hv, -, hact⟩ := h.value
  exact upsert_self hk h.plain hv hact

theorem ready_keeps {df : Option String} {j k : Json} (h : Ready df j) (hk : Keeps j k)
    (hwf : k.Wf)
    (hm : ∀ name, df = some name → Fits (k.valueAt ["printers", name, "default_macros"])) :
    Ready df k := by
  obtain ⟨fs, ps, rfl, hps⟩ := h.entry
  refine ⟨hwf, ?_, ?_, hm⟩
  · rcases hk.root with hnull | rfl | ⟨-, hobj⟩
    · cases hnull
    · rfl
    · exact hobj
  · have hat : (Json.obj fs).at? ["printers"] = some (.obj ps) := by
      rw [Json.at?_obj, hps]
      rfl
    obtain ⟨w, hw, hkept⟩ := hk ["printers"] _ hat
    rw [Json.valueAt, hw]
    rcases hkept with hnull | rfl | ⟨-, hobj⟩
    · cases hnull
    · rfl
    · exact hobj

theorem plain_of_value {df : Option String} {k : Json} (h : Ready df k) {s : Step} (hs : s.Fills)
    {name : String} {v : Json} (hv : k.at? (s.tokens name) = some v) :
    Plain (s.tokens name) k := by
  unfold Step.tokens at hv ⊢
  cases hplace : s.place with
  | top => exact plain_top h.obj s.key
  | printer =>
    rw [hplace] at hv
    exact plain_printer h hs (Or.inr ⟨v, hv⟩)

theorem settled_keeps {df : Option String} {name : String} {s : Step} (hs : s.Fills) {j k : Json}
    (h : Settled name s j) (hk : Keeps j k) (hready : Ready df k) : Settled name s k := by
  obtain ⟨v, hv, hne, hact⟩ := h.value
  obtain ⟨w, hw, hvw⟩ := keeps_at hk hv
  refine ⟨?_, w, hw, hvw.root.ne_null hne, hs.stable v w hact hvw⟩
  exact plain_of_value hready hs hw

theorem plain_tokens {df : Option String} {j k : Json} (h : Ready df j) {s : Step} (hs : s.Fills)
    {name : String} (hk : upsert s.act (s.tokens name) j = some k) : Plain (s.tokens name) j := by
  unfold Step.tokens at hk ⊢
  cases hplace : s.place with
  | top => exact plain_top h.obj s.key
  | printer =>
    rw [hplace] at hk
    exact plain_printer h hs (Or.inl ⟨k, hk⟩)

theorem apart_macros {s : Step} (hs : s.Fills)
    (hm : ¬ (s.place = .printer ∧ s.key = "default_macros"))
    (name name' : String) : Apart ["printers", name', "default_macros"] (s.tokens name) := by
  unfold Step.tokens
  cases hplace : s.place with
  | top => exact Or.inl hs.other.1.symm
  | printer =>
    have hkey : s.key ≠ "default_macros" := fun he => hm ⟨hplace, he⟩
    exact Or.inr (Or.inr (Or.inl hkey.symm))

theorem upsert_fills {df : Option String} {j k : Json} (h : Ready df j) {s : Step} (hs : s.Fills)
    {name : String} (hn : s.place = .printer → df = some name)
    (hk : upsert s.act (s.tokens name) j = some k) :
    Keeps j k ∧ Fresh (some j) k ∧ Ready df k ∧ Settled name s k ∧
      (∀ q, Apart q (s.tokens name) → k.at? q = j.at? q) := by
  have hplain := plain_tokens h hs hk
  have hat := at?_upsert hplain hk
  have hfits : s.key = "default_macros" → Fits (j.valueAt (s.tokens name)) := by
    intro hkey
    obtain ⟨hplace, -⟩ := hs.macros hkey
    unfold Step.tokens
    rw [hplace, hkey]
    exact h.macros name (hn hplace)
  have hkeeps := keeps_upsert (hs.keeps _ hfits) hplain hk
  have hwf := wf_upsert hs.wf h.wf hplain hk
  have hmacros : ∀ name', df = some name' →
      Fits (k.valueAt ["printers", name', "default_macros"]) := by
    intro name' hdf
    by_cases hkey : s.place = .printer ∧ s.key = "default_macros"
    · have hname : name = name' := Option.some.inj ((hn hkey.1).symm.trans hdf)
      have htokens : s.tokens name = ["printers", name', "default_macros"] := by
        unfold Step.tokens
        rw [hkey.1, hkey.2, hname]
      rw [← htokens, Json.valueAt, hat]
      exact (hs.macros hkey.2).2 _ (hfits hkey.2)
    · have hapart := apart_macros hs hkey name name'
      rw [Json.valueAt, at?_upsert_apart hplain hk hapart]
      exact h.macros name' hdf
  have hready := ready_keeps h hkeeps hwf hmacros
  refine ⟨hkeeps, fresh_upsert hs.fresh (some j) hplain hk, hready, ?_, ?_⟩
  · exact ⟨plain_of_value hready hs hat, _, hat, hs.filled _, hs.again _⟩
  · exact fun q hq => at?_upsert_apart hplain hk hq

theorem accessAll_fills {df : Option String} {text name : String} {steps : List Step} {j k : Json}
    (h : Ready df j) (hs : ∀ s ∈ steps, s.Fills)
    (ht : ∀ s ∈ steps, parse (s.text text) = some (s.tokens name))
    (hn : ∀ s ∈ steps, s.place = .printer → df = some name)
    (hk : accessAll text steps j = some k) :
    Keeps j k ∧ Fresh (some j) k ∧ Ready df k ∧ (∀ s ∈ steps, Settled name s k) ∧
      (∀ q, (∀ s ∈ steps, Apart q (s.tokens name)) → k.at? q = j.at? q) := by
  induction steps generalizing j with
  | nil =>
    cases hk
    exact ⟨Keeps.refl _, fun q hq => hq, h, (fun s hs => nomatch hs), fun _ _ => rfl⟩
  | cons s steps ih =>
    rw [accessAll, List.foldlM_cons] at hk
    obtain ⟨i, hi, hrest⟩ := Option.bind_eq_some_iff.mp hk
    have hfirst : s ∈ s :: steps := List.mem_cons_self ..
    rw [access, ht s hfirst, Option.bind_some] at hi
    obtain ⟨hkeeps, hfresh, hready, hsettled, hsame⟩ :=
      upsert_fills h (hs s hfirst) (hn s hfirst) hi
    obtain ⟨hkeeps', hfresh', hready', hsettled', hsame'⟩ := ih hready
      (fun t hm => hs t (List.mem_cons_of_mem s hm)) (fun t hm => ht t (List.mem_cons_of_mem s hm))
      (fun t hm => hn t (List.mem_cons_of_mem s hm)) hrest
    refine ⟨hkeeps.trans hkeeps', hfresh.trans hfresh', hready', fun t hm => ?_, fun q hq => ?_⟩
    · rcases List.mem_cons.mp hm with rfl | hm
      · exact settled_keeps (hs t hfirst) hsettled hkeeps' hready'
      · exact hsettled' t hm
    · rw [hsame' q fun t hm => hq t (List.mem_cons_of_mem s hm), hsame q (hq s hfirst)]

theorem accessAll_settled {text name : String} {steps : List Step} {k : Json} (hk : k.Wf)
    (ht : ∀ s ∈ steps, parse (s.text text) = some (s.tokens name))
    (h : ∀ s ∈ steps, Settled name s k) : accessAll text steps k = some k := by
  induction steps with
  | nil => rfl
  | cons s steps ih =>
    have hfirst : s ∈ s :: steps := List.mem_cons_self ..
    have hrest := ih (fun t hm => ht t (List.mem_cons_of_mem s hm))
      (fun t hm => h t (List.mem_cons_of_mem s hm))
    rw [accessAll, List.foldlM_cons, access, ht s hfirst, Option.bind_some, (h s hfirst).again hk]
    exact hrest

/-! ### The path and the name of the printer -/

/-- What stands between the seeds and the options of the printer. -/
def reseat (path : String) (d : Json) : Json :=
  (d.set "config_path" (.str path)).set "default_printer" ((d.get? "default_printer").getD .null)

theorem access_reseat {d : Json} (hd : d.isObject = true) (path : String) :
    accessAll "" [setPath path, readPrinter] d = some (reseat path d) := by
  have hpath : access "" d (setPath path) = some (d.set "config_path" (.str path)) := by
    rw [access, parse_top (s := setPath path) rfl (by show Lacks '/' "config_path"; decide)
      (by show Lacks '~' "config_path"; decide), Option.bind_some]
    exact upsert_top hd _
  have hname : access "" (d.set "config_path" (.str path)) readPrinter =
      some (reseat path d) := by
    have hget : (d.set "config_path" (.str path)).get? "default_printer" =
        d.get? "default_printer" := Json.get?_set_ne d _ (by decide)
    rw [access, parse_top rfl (by decide) (by decide), Option.bind_some, upsert_top rfl]
    show some ((d.set "config_path" (.str path)).set "default_printer"
      (((d.set "config_path" (.str path)).get? "default_printer").getD .null)) = _
    rw [hget]
    rfl
  rw [accessAll, List.foldlM_cons, hpath]
  show (access "" (d.set "config_path" (.str path)) readPrinter).bind _ = _
  rw [hname]
  rfl

theorem reseat_path (path : String) (d : Json) :
    (reseat path d).at? ["config_path"] = some (.str path) := by
  rw [reseat, at?_set_ne rfl (by decide), at?_set_self, Json.at?_nil]

theorem reseat_name (path : String) (d : Json) (q : List String) :
    (reseat path d).at? ("default_printer" :: q) =
      ((d.get? "default_printer").getD .null).at? q := by
  rw [reseat, at?_set_self]

theorem wf_reseat {d : Json} (hwf : d.Wf) (path : String) : (reseat path d).Wf := by
  refine Json.wf_set (Json.wf_set hwf trivial) ?_
  cases hg : d.get? "default_printer" with
  | none => trivial
  | some v => exact Json.wf_get? hwf hg

section
variable {d : Json} (hd : d.isObject = true) (path : String)
include hd

theorem at?_reseat {t : String} (hp : t ≠ "config_path") (hn : t ≠ "default_printer")
    (q : List String) : (reseat path d).at? (t :: q) = d.at? (t :: q) := by
  rw [reseat, at?_set_ne rfl hn, at?_set_ne hd hp]

theorem reseat_keeps {q : List String} {v : Json} (hq : q.head? ≠ some "config_path")
    (hv : d.at? q = some v) : ∃ w, (reseat path d).at? q = some w ∧ Kept v w := by
  cases q with
  | nil =>
    rw [Json.at?_nil] at hv
    cases hv
    exact ⟨_, Json.at?_nil _, Or.inr (Or.inr ⟨hd, rfl⟩)⟩
  | cons t q =>
    have hp : t ≠ "config_path" := fun he => hq (by rw [he]; rfl)
    by_cases hn : t = "default_printer"
    · subst hn
      refine ⟨v, ?_, Or.inr (Or.inl rfl)⟩
      rw [reseat_name]
      cases hg : d.get? "default_printer" with
      | none =>
        cases d with
        | obj fs =>
          rw [Json.at?_obj, show fs.find? "default_printer" = none from hg] at hv
          cases hv
        | _ => cases hd
      | some x =>
        rw [Json.at?_of_get? hg] at hv
        exact hv
    · rw [at?_reseat hd path hp hn]
      exact ⟨v, hv, Or.inr (Or.inl rfl)⟩

theorem reseat_nulls {q : List String} (hq : (reseat path d).at? q = some .null) :
    d.at? q = some .null ∨ q = ["default_printer"] := by
  cases q with
  | nil => cases hq
  | cons t q =>
    by_cases hn : t = "default_printer"
    · subst hn
      rw [reseat_name] at hq
      cases hg : d.get? "default_printer" with
      | none =>
        rw [hg] at hq
        cases q with
        | nil => exact Or.inr rfl
        | cons r q => cases hq
      | some x =>
        rw [hg] at hq
        rw [Json.at?_of_get? hg]
        exact Or.inl hq
    · by_cases hp : t = "config_path"
      · subst hp
        rw [reseat, at?_set_ne rfl hn, at?_set_self] at hq
        cases q <;> cases hq
      · rw [at?_reseat hd path hp hn] at hq
        exact Or.inl hq

end

theorem ready_reseat {df : Option String} {d : Json} (h : Ready df d) (path : String) :
    Ready df (reseat path d) := by
  refine ⟨wf_reseat h.wf path, rfl, ?_, fun name hname => ?_⟩
  · rw [Json.valueAt, at?_reseat h.obj path (by decide) (by decide)]
    exact h.printers
  · rw [Json.valueAt, at?_reseat h.obj path (by decide) (by decide)]
    exact h.macros name hname

theorem apart_top {s : Step} (hs : s.Fills) (name : String) {t : String}
    (ht : t = "default_printer" ∨ t = "config_path") : Apart [t] (s.tokens name) := by
  unfold Step.tokens
  cases s.place with
  | top =>
    rcases ht with rfl | rfl
    · exact Or.inl hs.other.2.1.symm
    · exact Or.inl hs.other.2.2.symm
  | printer =>
    rcases ht with rfl | rfl
    · exact Or.inl (by decide)
    · exact Or.inl (by decide)

theorem parse_tops {steps : List Step} (hs : ∀ s ∈ steps, s.Fills)
    (ht : ∀ s ∈ steps, s.place = .top) (df name : String) :
    ∀ s ∈ steps, parse (s.text df) = some (s.tokens name) := by
  intro s hm
  rw [parse_top (ht s hm) (hs s hm).slash (hs s hm).tilde]
  unfold Step.tokens
  rw [ht s hm]

theorem parse_backfill {name : String} (hs : Lacks '/' name) (ht : Lacks '~' name) :
    ∀ s ∈ backfill, parse (s.text (dfOf name)) = some (s.tokens name) := by
  intro s hm
  have hfills := fills_backfill s hm
  unfold Step.tokens
  cases hplace : s.place with
  | top => exact parse_top hplace hfills.slash hfills.tilde
  | printer => exact parse_printer hplace hfills.slash hfills.tilde hs ht

theorem seeds_top : ∀ s ∈ seeds, s.place = .top := by
  intro s hm
  simp only [seeds, List.mem_cons, List.not_mem_nil, or_false] at hm
  rcases hm with rfl | rfl <;> rfl

theorem screen_top (b : Build) : ∀ s ∈ screen b, s.place = .top := by
  intro s hm
  simp only [screen, List.mem_cons, List.not_mem_nil, or_false] at hm
  rcases hm with rfl | rfl | rfl | rfl <;> rfl

/-- The name `init` takes the printer's options from. -/
def printerOf (j : Json) : Option String := (j.valueAt ["default_printer"]).str?

theorem initPrinter_cases {d k : Json} (h : initPrinter d = some k) :
    (d.valueAt ["default_printer"] = .null ∧ printerOf d = none ∧ k = d) ∨
    ∃ name, d.valueAt ["default_printer"] = .str name ∧ printerOf d = some name ∧
      accessAll (dfOf name) backfill d = some k := by
  unfold initPrinter at h
  unfold printerOf
  split at h
  · rename_i hv
    cases h
    exact Or.inl ⟨hv, by rw [hv]; rfl, rfl⟩
  · rename_i name hv
    exact Or.inr ⟨name, hv, by rw [hv]; rfl, h⟩
  · cases h

/-- From the name of the printer to the end: the tail of `init`. -/
theorem tail_fills {b : Build} {df : Option String} {d e out : Json} (h : Ready df d)
    (hdf : df = printerOf d) (hn : ∀ name, df = some name → Lacks '/' name ∧ Lacks '~' name)
    (he : initPrinter d = some e) (hout : accessAll "" (screen b) e = some out) :
    Keeps d out ∧ Fresh (some d) out ∧ Ready df out ∧
      (∀ name, df = some name → ∀ s ∈ backfill, Settled name s out) ∧
      (∀ s ∈ screen b, Settled "" s out) ∧
      out.at? ["default_printer"] = d.at? ["default_printer"] ∧
      out.at? ["config_path"] = d.at? ["config_path"] := by
  have hscreen := fills_screen b
  have htop (t : String) (ht : t = "default_printer" ∨ t = "config_path") :
      ∀ s ∈ screen b, Apart [t] (s.tokens "") := fun s hm => apart_top (hscreen s hm) "" ht
  have hfinish {e : Json} (hready : Ready df e) (hout : accessAll "" (screen b) e = some out) :=
    accessAll_fills hready hscreen (parse_tops hscreen (screen_top b) "" "")
      (fun s hm hp => absurd ((screen_top b s hm).symm.trans hp) (by decide)) hout
  rcases initPrinter_cases he with ⟨-, hnone, rfl⟩ | ⟨name, -, hsome, hfill⟩
  · obtain ⟨hkeeps, hfresh, hready, hsettled, hsame⟩ := hfinish h hout
    refine ⟨hkeeps, hfresh, hready, ?_, hsettled, hsame _ (htop _ (Or.inl rfl)),
      hsame _ (htop _ (Or.inr rfl))⟩
    intro name hname
    rw [hdf, hnone] at hname
    cases hname
  · have hname : df = some name := hdf.trans hsome
    obtain ⟨hs, ht⟩ := hn name hname
    obtain ⟨hkeeps, hfresh, hready, hsettled, hsame⟩ := accessAll_fills h
      fills_backfill (parse_backfill hs ht) (fun _ _ _ => hname) hfill
    obtain ⟨hkeeps', hfresh', hready', hsettled', hsame'⟩ := hfinish hready hout
    have hback (t : String) (htop : t = "default_printer" ∨ t = "config_path") :
        ∀ s ∈ backfill, Apart [t] (s.tokens name) :=
      fun s hm => apart_top (fills_backfill s hm) name htop
    refine ⟨hkeeps.trans hkeeps', hfresh.trans hfresh', hready', ?_, hsettled', ?_, ?_⟩
    · intro name' hname' s hm
      have heq : name = name' := Option.some.inj (hname.symm.trans hname')
      subst heq
      exact settled_keeps (fills_backfill s hm) (hsettled s hm) hkeeps' hready'
    · rw [hsame' _ (htop _ (Or.inl rfl)), hsame _ (hback _ (Or.inl rfl))]
    · rw [hsame' _ (htop _ (Or.inr rfl)), hsame _ (hback _ (Or.inr rfl))]

theorem accessAll_append {df : String} {as bs : List Step} {j k : Json} :
    accessAll df (as ++ bs) j = some k ↔
      ∃ d, accessAll df as j = some d ∧ accessAll df bs d = some k := by
  rw [accessAll, List.foldlM_append]
  exact Option.bind_eq_some_iff

theorem seeds_fill {df : Option String} {j d : Json} (h : Ready df j)
    (hd : accessAll "" seeds j = some d) :
    Keeps j d ∧ Fresh (some j) d ∧ Ready df d ∧ (∀ s ∈ seeds, Settled "" s d) ∧
      d.at? ["default_printer"] = j.at? ["default_printer"] := by
  obtain ⟨hkeeps, hfresh, hready, hsettled, hsame⟩ := accessAll_fills h fills_seeds
    (parse_tops fills_seeds seeds_top "" "")
    (fun s hm hp => absurd ((seeds_top s hm).symm.trans hp) (by decide)) hd
  refine ⟨hkeeps, hfresh, hready, hsettled, hsame _ fun s hm => ?_⟩
  exact apart_top (fills_seeds s hm) "" (Or.inl rfl)

theorem init_parts {b : Build} {path : String} {df : Option String} {j out : Json}
    (h : Ready df j) (hinit : init b path j = some out) :
    ∃ d e, accessAll "" seeds j = some d ∧ initPrinter (reseat path d) = some e ∧
      accessAll "" (screen b) e = some out := by
  obtain ⟨d4, hd4, hrest⟩ := Option.bind_eq_some_iff.mp hinit
  obtain ⟨e, he, hout⟩ := Option.bind_eq_some_iff.mp hrest
  obtain ⟨d, hd, hseat⟩ := accessAll_append.mp hd4
  obtain ⟨-, -, hready, -, -⟩ := seeds_fill h hd
  rw [access_reseat hready.obj] at hseat
  cases hseat
  exact ⟨d, e, hd, he, hout⟩

theorem valueAt_name {d j : Json} (hd : d.isObject = true)
    (h : d.at? ["default_printer"] = j.at? ["default_printer"]) (path : String) :
    (reseat path d).at? ["default_printer"] = some (j.valueAt ["default_printer"]) := by
  rw [reseat_name, Json.at?_nil, Json.valueAt, ← h]
  cases d with
  | obj fs =>
    rw [Json.at?_obj]
    show some ((fs.find? "default_printer").getD .null) = _
    cases fs.find? "default_printer" with
    | none => rfl
    | some v => rw [Option.bind_some, Json.at?_nil]
  | _ => cases hd

theorem settled_reseat {s : Step} (hs : s ∈ seeds) {d : Json} (hd : d.isObject = true)
    (h : Settled "" s d) (path : String) : Settled "" s (reseat path d) := by
  have hother := (fills_seeds s hs).other
  have htokens : s.tokens "" = [s.key] := by
    unfold Step.tokens
    rw [seeds_top s hs]
  obtain ⟨v, hv, hrest⟩ := h.value
  rw [htokens] at hv
  refine ⟨?_, v, ?_, hrest⟩
  · rw [htokens]
    exact plain_top rfl s.key
  · rw [htokens, at?_reseat hd path hother.2.2 hother.2.1]
    exact hv

-- `reseat` finds the path and the name as it would leave them.
theorem reseat_self {path : String} {d : Json} (hd : d.Wf) {v : Json}
    (hp : d.at? ["config_path"] = some (.str path)) (hn : d.at? ["default_printer"] = some v) :
    reseat path d = d := by
  have hpath := Json.get?_of_at? (by decide) hp
  have hname := Json.get?_of_at? (by decide) hn
  rw [reseat, set_self hd hpath, hname, Option.getD_some, set_self hd hname]

/-- What `init` does to a configuration it accepts: running it again changes
nothing, what was there stays and objects only gain members, it adds no null but
the name of the printer, and every option it knows has a value. -/
structure Migrated (b : Build) (path : String) (j out : Json) : Prop where
  again : init b path out = some out
  kept : ∀ q v, q.head? ≠ some "config_path" → j.at? q = some v → v ≠ .null →
    ∃ w, out.at? q = some w ∧ (w = v ∨ (v.isObject = true ∧ w.isObject = true))
  nulls : ∀ q, out.at? q = some .null → j.at? q = some .null ∨ q = ["default_printer"]
  filled : ∀ name, j.valueAt ["default_printer"] = .str name →
    ∀ q ∈ options name, ∃ v, out.at? q = some v ∧ v ≠ .null

theorem options_settled {b : Build} {name : String} {out : Json}
    (hseeds : ∀ s ∈ seeds, Settled "" s out) (hback : ∀ s ∈ backfill, Settled name s out)
    (hscreen : ∀ s ∈ screen b, Settled "" s out) :
    ∀ q ∈ options name, ∃ v, out.at? q = some v ∧ v ≠ .null := by
  have hvalue {n : String} {s : Step} (h : Settled n s out) :
      ∃ v, out.at? (s.tokens n) = some v ∧ v ≠ .null := by
    obtain ⟨v, hv, hne, -⟩ := h.value
    exact ⟨v, hv, hne⟩
  have hall : ∀ q ∈ options name, (∃ s ∈ backfill, q = s.tokens name) ∨
      (∃ s ∈ screen b, q = s.tokens "") ∨ ∃ s ∈ seeds, q = s.tokens "" := by
    simp [options, backfill, screen, seeds, Step.tokens]
  intro q hq
  rcases hall q hq with ⟨s, hs, rfl⟩ | ⟨s, hs, rfl⟩ | ⟨s, hs, rfl⟩
  · exact hvalue (hback s hs)
  · exact hvalue (hscreen s hs)
  · exact hvalue (hseeds s hs)

theorem init_migrates (b : Build) (path : String) (j out : Json) (hwf : j.Wf)
    (hobj : j.isObject = true) (hprinters : (j.valueAt ["printers"]).isObject = true)
    (hname : ∀ name, j.valueAt ["default_printer"] = .str name → Lacks '/' name ∧ Lacks '~' name)
    (hmacros : ∀ name, j.valueAt ["default_printer"] = .str name →
      Fits (j.valueAt ["printers", name, "default_macros"]))
    (hinit : init b path j = some out) : Migrated b path j out := by
  have hstr : ∀ {name}, printerOf j = some name → j.valueAt ["default_printer"] = .str name := by
    intro name h
    unfold printerOf at h
    cases hv : j.valueAt ["default_printer"] with
    | str s =>
      rw [hv] at h
      cases h
      rfl
    | _ => rw [hv] at h; cases h
  have hready : Ready (printerOf j) j :=
    ⟨hwf, hobj, hprinters, fun name h => hmacros name (hstr h)⟩
  obtain ⟨d, e, hd, he, hout⟩ := init_parts hready hinit
  obtain ⟨hkeeps, hfresh, hreadyd, hseeds, hsamed⟩ := seeds_fill hready hd
  have hseat := valueAt_name hreadyd.obj hsamed path
  have hdf : printerOf j = printerOf (reseat path d) := by
    unfold printerOf
    rw [Json.valueAt, Json.valueAt, hseat]
    rfl
  obtain ⟨hkeeps', hfresh', hreadyo, hback, hscreen, hnameo, hpatho⟩ :=
    tail_fills (ready_reseat hreadyd path) hdf (fun name h => hname name (hstr h)) he hout
  have hseedso : ∀ s ∈ seeds, Settled "" s out := fun s hs =>
    settled_keeps (fills_seeds s hs) (settled_reseat hs hreadyd.obj (hseeds s hs) path) hkeeps'
      hreadyo
  rw [hseat] at hnameo
  rw [reseat_path] at hpatho
  refine ⟨?_, ?_, ?_, ?_⟩
  · have hfirst : accessAll "" (seeds ++ [setPath path, readPrinter]) out = some out := by
      rw [accessAll_append]
      refine ⟨out, accessAll_settled hreadyo.wf (parse_tops fills_seeds seeds_top "" "") hseedso,
        ?_⟩
      rw [access_reseat hreadyo.obj, reseat_self hreadyo.wf hpatho hnameo]
    have hsecond : initPrinter out = some out := by
      have hvalue : out.valueAt ["default_printer"] = j.valueAt ["default_printer"] := by
        rw [Json.valueAt, hnameo, Option.getD_some]
      unfold initPrinter
      rw [hvalue]
      rcases initPrinter_cases he with ⟨hnull, -, -⟩ | ⟨name, hsome, hprinter, -⟩
      · rw [Json.valueAt, hseat, Option.getD_some] at hnull
        rw [hnull]
      · rw [Json.valueAt, hseat, Option.getD_some] at hsome
        obtain ⟨hslash, htilde⟩ := hname name hsome
        rw [hsome]
        exact accessAll_settled hreadyo.wf (parse_backfill hslash htilde)
          (hback name (hdf.trans hprinter))
    have hthird : accessAll "" (screen b) out = some out :=
      accessAll_settled hreadyo.wf (parse_tops (fills_screen b) (screen_top b) "" "") hscreen
    unfold init
    rw [hfirst]
    show (initPrinter out).bind _ = _
    rw [hsecond]
    exact hthird
  · intro q v hq hv hne
    obtain ⟨u, hu, hkept⟩ := hkeeps q v hv
    obtain ⟨w, hw, hkept'⟩ := reseat_keeps hreadyd.obj path hq hu
    obtain ⟨x, hx, hkept''⟩ := hkeeps' q w hw
    refine ⟨x, hx, ?_⟩
    exact ((hkept.trans hkept').trans hkept'').resolve_left hne
  · intro q hq
    rcases reseat_nulls hreadyd.obj path (hfresh' q hq) with hnull | hlast
    · exact Or.inl (hfresh q hnull)
    · exact Or.inr hlast
  · intro name hv q hq
    have hprinter : printerOf j = some name := by
      unfold printerOf
      rw [hv]
      rfl
    exact options_settled hseedso (hback name hprinter) hscreen q hq

-- A file from before the options of the extruder panel.
def oldConfig : Json :=
  .obj (.cons "default_printer" (.str "k1") (.cons "printers" (.obj (.cons "k1"
    (.obj (.cons "moonraker_host" (.str "127.0.0.1") (.cons "moonraker_port" (.int 7125) .nil)))
    .nil)) .nil))

theorem oldConfig_name {name : String} (h : oldConfig.valueAt ["default_printer"] = .str name) :
    name = "k1" := by
  have hk1 : oldConfig.valueAt ["default_printer"] = .str "k1" := by decide
  rw [hk1] at h
  cases h
  rfl

theorem init_oldConfig : ∃ out, init ⟨false, false⟩ "guppyconfig.json" oldConfig = some out := by
  apply Option.isSome_iff_exists.mp
  decide +kernel

theorem oldConfig_migrates :
    ∃ out, init ⟨false, false⟩ "guppyconfig.json" oldConfig = some out ∧
      Migrated ⟨false, false⟩ "guppyconfig.json" oldConfig out := by
  obtain ⟨out, hout⟩ := init_oldConfig
  refine ⟨out, hout, init_migrates _ _ _ _ (by decide) rfl rfl ?_ ?_ hout⟩
  · intro name h
    rw [oldConfig_name h]
    decide
  · intro name h
    rw [oldConfig_name h]
    exact Or.inl (by decide)

/-- The object of the default printer does not stay as it was: it gains options. -/
theorem init_extends_printer :
    ¬ ∀ (b : Build) (path : String) (j out : Json), j.Wf → j.isObject = true →
      (j.valueAt ["printers"]).isObject = true →
      (∀ name, j.valueAt ["default_printer"] = .str name → Lacks '/' name ∧ Lacks '~' name) →
      (∀ name, j.valueAt ["default_printer"] = .str name →
        Fits (j.valueAt ["printers", name, "default_macros"])) →
      init b path j = some out →
      ∀ q v, q.head? ≠ some "config_path" → j.at? q = some v → v ≠ .null → out.at? q = some v := by
  intro h
  obtain ⟨out, hout⟩ := init_oldConfig
  have hsame := h _ _ _ out (by decide) rfl rfl
    (fun name hn => by rw [oldConfig_name hn]; decide)
    (fun name hn => by rw [oldConfig_name hn]; exact Or.inl (by decide)) hout
    ["printers", "k1"] (oldConfig.valueAt ["printers", "k1"]) (by decide) (by decide) (by decide)
  have hgain : (init ⟨false, false⟩ "guppyconfig.json" oldConfig).bind (·.at? ["printers", "k1"]) ≠
      some (oldConfig.valueAt ["printers", "k1"]) := by
    decide +kernel
  rw [hout] at hgain
  exact hgain hsame

end GuppyScreen.Config
