import GuppyScreen.Lib.Json
import GuppyScreen.Lib.Run

/-!
# The panel's copy of the printer (state.cpp)

`State` holds one JSON document. The subscription reply and every
`notify_status_update` are merged into its `printer_state` member with
`merge_patch`; panels read it back through JSON pointers.
-/

namespace GuppyScreen
open Lib

/-- The document behind `State::get_instance` (`state.h`). -/
structure State where
  data : Json
  deriving DecidableEq

namespace State

def reset (s : State) : State := ⟨s.data.clear⟩

/-- `State::set_data`: nothing for a pointer that is absent or leads to a null. -/
def setData (s : State) (key : String) (j : Json) (ptr : List String) : State :=
  match j.at? ptr with
  | none => s
  | some .null => s
  | some patch => ⟨s.data.set key (((s.data.get? key).getD .null).mergePatch patch)⟩

def getData (s : State) (ptr : List String) : Json := s.data.valueAt ptr

def consume (s : State) (j : Json) : State :=
  match j.get? "params" with
  | none => s
  | some params =>
    if params.isEmpty then s else s.setData "printer_state" j ["params", "0"]

theorem setData_absent (s : State) (key : String) {j : Json} {ptr : List String}
    (h : j.valueAt ptr = .null) : s.setData key j ptr = s := by
  unfold setData
  unfold Json.valueAt at h
  cases hp : j.at? ptr with
  | none => rfl
  | some v =>
    rw [hp] at h
    have hv : v = .null := h
    rw [hv]

theorem setData_present (s : State) (key : String) {j : Json} {ptr : List String}
    (h : j.valueAt ptr ≠ .null) :
    (s.setData key j ptr).data =
      s.data.set key (((s.data.get? key).getD .null).mergePatch (j.valueAt ptr)) := by
  unfold setData
  unfold Json.valueAt at h ⊢
  cases hp : j.at? ptr with
  | none => simp [hp] at h
  | some v =>
    rw [hp] at h
    cases v with
    | null => simp at h
    | _ => rfl

/-- A notification that carries anything at `/params/0` has non-empty params, so
the guard in `consume` never keeps an update out. -/
theorem consume_eq (s : State) (j : Json) :
    s.consume j = s.setData "printer_state" j ["params", "0"] := by
  have hnone : j.at? ["params", "0"] = none → s.setData "printer_state" j ["params", "0"] = s := by
    intro h
    exact setData_absent s _ (by simp [Json.valueAt, h])
  unfold consume
  cases j with
  | obj fs =>
    have hget : (Json.obj fs).get? "params" = fs.find? "params" := rfl
    rw [hget]
    cases hp : fs.find? "params" with
    | none => exact (hnone (by rw [Json.at?_obj, hp]; rfl)).symm
    | some params =>
      show (if params.isEmpty = true then s else _) = _
      split_ifs with he
      · refine (hnone ?_).symm
        rw [Json.at?_obj, hp]
        show params.at? ["0"] = none
        by_contra hn
        obtain ⟨v, hv⟩ := Option.ne_none_iff_exists'.mp hn
        simp [Json.isEmpty_of_at? hv] at he
      · rfl
  | arr l =>
    refine (hnone ?_).symm
    show (arrayIndex "params").bind _ = none
    rw [show arrayIndex "params" = none by decide]
    rfl
  | _ => exact (hnone rfl).symm

end State

/-! ### Updates from the printer -/

/-- How an update reaches `State`. -/
inductive Via where
  /-- The reply to `printer.objects.subscribe`. -/
  | reply
  /-- A `notify_status_update`, through `State::consume`. -/
  | notification
  deriving DecidableEq

def Via.path : Via → List String
  | .reply => ["result", "status"]
  | .notification => ["params", "0"]

/-- An update maps object names to objects; a message may also carry none. -/
def isUpdate : Json → Bool
  | .null => true
  | .obj ps => ps.keys.all fun o => ((ps.find? o).getD .null).isObject
  | _ => false

/-- One message, with what is assumed of Moonraker. -/
structure Message where
  via : Via
  body : Json
  wf : body.Wf
  update : isUpdate (body.valueAt via.path) = true

namespace Message

def status (m : Message) : Json := m.body.valueAt m.via.path

/-- The value this message reports for a field of an object, if any. -/
def reports (m : Message) (o f : String) : Option Json := (m.status.get? o).bind (·.get? f)

end Message

namespace State

def deliver (s : State) (m : Message) : State :=
  match m.via with
  | .reply => s.setData "printer_state" m.body ["result", "status"]
  | .notification => s.consume m.body

theorem deliver_eq (s : State) (m : Message) :
    s.deliver m = s.setData "printer_state" m.body m.via.path := by
  unfold deliver
  cases m.via with
  | reply => rfl
  | notification => exact consume_eq s m.body

/-- What is stored for the printer: absent, or an object of objects. -/
def Mirror (s : State) : Prop :=
  s.data.Wf ∧ ∀ v, s.data.get? "printer_state" = some v →
    ∃ fs, v = .obj fs ∧ ∀ o w, fs.find? o = some w → w.isObject = true

theorem mirror_reset (s : State) : s.reset.Mirror := by
  have hwf : s.data.clear.Wf := by
    cases s.data with
    | obj _ => exact ⟨trivial, trivial⟩
    | _ => trivial
  have hempty : s.data.clear.get? "printer_state" = none := by
    cases s.data <;> rfl
  refine ⟨hwf, fun v hv => ?_⟩
  rw [show s.reset.data = s.data.clear from rfl, hempty] at hv
  cases hv

theorem update_objects {ps : Fields} (h : isUpdate (.obj ps) = true) {o : String} {w : Json}
    (hw : ps.find? o = some w) : w.isObject = true := by
  have hk : o ∈ ps.keys := by
    by_contra hn
    rw [(Fields.find?_eq_none_iff ps o).mpr hn] at hw
    cases hw
  have hall := List.all_eq_true.mp h o hk
  rwa [hw] at hall

theorem isObject_eq {w : Json} (h : w.isObject = true) : w = .obj w.members := by
  cases w with
  | obj _ => rfl
  | _ => cases h

theorem status_cases (m : Message) : m.status = .null ∨
    ∃ ps, m.status = .obj ps ∧ ps.Sorted ∧ ps.Wf ∧ isUpdate (.obj ps) = true := by
  have hu : isUpdate m.status = true := m.update
  have hwf : m.status.Wf := by
    unfold Message.status Json.valueAt
    cases hp : m.body.at? m.via.path with
    | none => trivial
    | some v => exact Json.wf_at? _ _ m.wf hp
  cases hs : m.status with
  | null => exact Or.inl rfl
  | obj ps =>
    rw [hs] at hu hwf
    exact Or.inr ⟨ps, rfl, hwf.1, hwf.2, hu⟩
  | _ => rw [hs] at hu; cases hu

theorem deliver_null (s : State) (m : Message) (h : m.status = .null) : s.deliver m = s := by
  rw [deliver_eq]
  exact setData_absent s _ h

theorem deliver_obj (s : State) (m : Message) {ps : Fields} (h : m.status = .obj ps) :
    (s.deliver m).data = s.data.set "printer_state"
      (.obj (Fields.mergeInto ((s.data.get? "printer_state").getD .null).members ps)) := by
  have hn : m.body.valueAt m.via.path ≠ .null := by
    rw [show m.body.valueAt m.via.path = .obj ps from h]
    exact Json.noConfusion
  rw [deliver_eq, setData_present s _ hn, show m.body.valueAt m.via.path = .obj ps from h]
  rfl

theorem mirror_setData {s : State} {key : String} {j : Json} {ptr : List String} (h : s.Mirror)
    (hj : j.Wf) (hkey : key ≠ "printer_state") : (s.setData key j ptr).Mirror := by
  by_cases hn : j.valueAt ptr = .null
  · rw [setData_absent s key hn]
    exact h
  have hpatch : (j.valueAt ptr).Wf := by
    unfold Json.valueAt
    cases hp : j.at? ptr with
    | none => trivial
    | some v => exact Json.wf_at? _ _ hj hp
  have hold : ((s.data.get? key).getD .null).Wf := by
    cases hg : s.data.get? key with
    | none => trivial
    | some v => exact Json.wf_get? h.1 hg
  unfold Mirror
  rw [setData_present s key hn]
  refine ⟨Json.wf_set h.1 (Json.mergePatch_wf _ hold _ hpatch), fun v hv => ?_⟩
  rw [Json.get?_set_ne _ _ hkey.symm] at hv
  exact h.2 v hv

theorem mirror_deliver (s : State) (m : Message) (h : s.Mirror) : (s.deliver m).Mirror := by
  rcases status_cases m with hnull | ⟨ps, hs, hsort, hwf, hu⟩
  · rw [deliver_null s m hnull]
    exact h
  have hold : ((s.data.get? "printer_state").getD .null).Wf := by
    cases hg : s.data.get? "printer_state" with
    | none => trivial
    | some v => exact Json.wf_get? h.1 hg
  have hnew := Json.mergePatch_wf _ hold (.obj ps) ⟨hsort, hwf⟩
  unfold Mirror
  rw [deliver_obj s m hs]
  refine ⟨Json.wf_set h.1 hnew, fun v hv => ?_⟩
  rw [Json.get?_set_self] at hv
  cases hv
  refine ⟨_, rfl, fun o w hw => ?_⟩
  rw [Fields.find?_mergeInto ps _ hsort] at hw
  cases hp : ps.find? o with
  | some p =>
    have hobj := update_objects hu hp
    rw [hp, isObject_eq hobj] at hw
    cases hw
    rfl
  | none =>
    rw [hp] at hw
    cases hg : s.data.get? "printer_state" with
    | none => rw [hg] at hw; cases hw
    | some t =>
      obtain ⟨fs, rfl, hfs⟩ := h.2 t hg
      rw [hg] at hw
      exact hfs o w hw

-- One field of one object as stored.
def field (s : State) (o f : String) : Option Json := s.data.at? ["printer_state", o, f]

theorem field_eq (s : State) (h : s.Mirror) (o f : String) :
    s.field o f = ((((s.data.get? "printer_state").getD .null).members.find? o).getD
      .null).members.find? f := by
  have hget : s.data.at? ["printer_state", o, f] =
      (s.data.get? "printer_state").bind (·.at? [o, f]) := by
    cases hd : s.data with
    | arr l => rw [Json.at?, show arrayIndex "printer_state" = none by decide]; rfl
    | _ => rfl
  unfold field
  rw [hget]
  cases hp : s.data.get? "printer_state" with
  | none => rfl
  | some t =>
    obtain ⟨fs, rfl, hfs⟩ := h.2 t hp
    show (fs.find? o).bind (·.at? [f]) = ((fs.find? o).getD .null).members.find? f
    cases ho : fs.find? o with
    | none => rfl
    | some w =>
      rw [isObject_eq (hfs o w ho)]
      show (w.members.find? f).bind (·.at? []) = w.members.find? f
      cases w.members.find? f with
      | none => rfl
      | some x => exact Json.at?_nil x

-- One message acts on a field as a merge of the value it reports.
theorem field_deliver (s : State) (m : Message) (h : s.Mirror) (o f : String) :
    (s.deliver m).field o f = Fields.merged (s.field o f) (m.reports o f) := by
  rcases status_cases m with hnull | ⟨ps, hs, hsort, hwf, hu⟩
  · have hr : m.reports o f = none := by unfold Message.reports; rw [hnull]; rfl
    rw [deliver_null s m hnull, hr]
    rfl
  rw [field_eq _ (mirror_deliver s m h), field_eq s h, deliver_obj s m hs, Json.get?_set_self]
  have hr : m.reports o f = (ps.find? o).bind (·.get? f) := by unfold Message.reports; rw [hs]; rfl
  rw [hr]
  show ((((Fields.mergeInto _ ps).find? o).getD .null).members.find? f) = _
  rw [Fields.find?_mergeInto ps _ hsort]
  cases hp : ps.find? o with
  | none => rfl
  | some p =>
    have hpo := isObject_eq (update_objects hu hp)
    have hps : p.members.Sorted := by
      have hw := Fields.wf_find? hwf hp
      exact (Json.wf_members hw).1
    rw [hpo]
    exact Fields.find?_mergeInto p.members _ hps f

-- The other members of the document are none of the printer's.
theorem field_setData_ne {s : State} {key : String} {j : Json} {ptr : List String} (h : s.Mirror)
    (hj : j.Wf) (hkey : key ≠ "printer_state") (o f : String) :
    (s.setData key j ptr).field o f = s.field o f := by
  rw [field_eq _ (mirror_setData h hj hkey), field_eq s h]
  by_cases hn : j.valueAt ptr = .null
  · rw [setData_absent s key hn]
  · rw [setData_present s key hn, Json.get?_set_ne _ _ hkey.symm]

-- What a notification reports is what a panel finds in it.
theorem valueAt_of_reports {m : Message} (hv : m.via = .notification) {o f : String} {v : Json}
    (hr : m.reports o f = some v) : m.body.valueAt ["params", "0", o, f] = v := by
  have hst : m.status = m.body.valueAt ["params", "0"] := by
    unfold Message.status
    rw [hv]
    rfl
  unfold Message.reports at hr
  rw [hst] at hr
  exact Json.valueAt_of_get? ["params", "0"] hr

theorem field_wf {s : State} (h : s.Mirror) (o f : String) : ((s.field o f).getD .null).Wf := by
  cases hf : s.field o f with
  | none => trivial
  | some v => exact Json.wf_at? _ _ h.1 hf

theorem reports_wf {m : Message} {o f : String} {v : Json} (h : m.reports o f = some v) : v.Wf := by
  obtain ⟨w, hw, hv⟩ := Option.bind_eq_some_iff.mp h
  rcases status_cases m with hnull | ⟨ps, hs, hsort, hwf, _⟩
  · rw [hnull] at hw
    cases hw
  · rw [hs] at hw
    exact Json.wf_get? (Fields.wf_find? hwf hw) hv

/-! ### Whole runs -/

def deliverAll (s : State) (ms : List Message) : State := Run.run deliver s ms

theorem mirror_deliverAll (s : State) (ms : List Message) (h : s.Mirror) :
    (s.deliverAll ms).Mirror :=
  Run.invariant_always (fun t m => mirror_deliver t m) s ms h

theorem field_unreported (s : State) (ms : List Message) (h : s.Mirror) (o f : String)
    (hn : ∀ m ∈ ms, m.reports o f = none) : (s.deliverAll ms).field o f = s.field o f := by
  induction ms generalizing s with
  | nil => rfl
  | cons m ms ih =>
    have hm : m.reports o f = none := hn m (List.mem_cons_self ..)
    have hstep := field_deliver s m h o f
    rw [hm] at hstep
    have hrest := ih (s.deliver m) (mirror_deliver s m h) fun x hx =>
      hn x (List.mem_cons_of_mem _ hx)
    exact hrest.trans hstep

/-- After any run since a reset, a field reads back as last reported exactly when
that report settled it: `merge_patch` replaces scalars and arrays, but merges an
object into the one already stored. -/
theorem get_data_last_report_iff (s : State) (pre post : List Message) (m : Message)
    (o f : String) (v : Json) (hm : m.reports o f = some v)
    (hpost : ∀ n ∈ post, n.reports o f = none) :
    (s.reset.deliverAll (pre ++ m :: post)).getData ["printer_state", o, f] = v ↔
      ((s.reset.deliverAll pre).getData ["printer_state", o, f]).settles v = true := by
  have hpre := mirror_deliverAll s.reset pre (mirror_reset s)
  have hmid := mirror_deliver _ m hpre
  have hsplit : s.reset.deliverAll (pre ++ m :: post) =
      ((s.reset.deliverAll pre).deliver m).deliverAll post := by
    simp only [deliverAll, Run.run_append, Run.run_cons]
  have hfield := (field_unreported _ post hmid o f hpost).trans (field_deliver _ m hpre o f)
  rw [hm] at hfield
  have hiff := Json.mergePatch_eq_patch_iff _ (field_wf hpre o f) v (reports_wf hm)
  rw [hsplit]
  show ((_ : State).field o f).getD .null = v ↔
    (((_ : State).field o f).getD .null).settles v = true
  rw [hfield, ← hiff]
  by_cases hv : v = .null
  · subst hv
    exact ⟨fun _ => rfl, fun _ => rfl⟩
  · rw [Fields.merged_some hv, Option.getD_some]

-- A `notify_status_update` that reports the bed mesh profiles.
def meshUpdate (profiles : Fields) : Json :=
  .obj (.cons "params" (.arr (.cons
    (.obj (.cons "bed_mesh" (.obj (.cons "profiles" (.obj profiles) .nil)) .nil)) .nil)) .nil)

def twoProfiles : Message :=
  ⟨.notification, meshUpdate (.cons "adaptive" (.obj .nil) (.cons "default" (.obj .nil) .nil)),
    by decide, by decide⟩

def oneProfile : Message :=
  ⟨.notification, meshUpdate (.cons "default" (.obj .nil) .nil), by decide, by decide⟩

theorem get_data_second_mesh_report :
    ((State.mk .null).reset.deliverAll ([oneProfile] ++ twoProfiles :: [])).getData
      ["printer_state", "bed_mesh", "profiles"] =
        .obj (.cons "adaptive" (.obj .nil) (.cons "default" (.obj .nil) .nil)) :=
  (get_data_last_report_iff (State.mk .null) [oneProfile] [] twoProfiles "bed_mesh" "profiles" _
    (by decide) (by decide)).mpr (by decide)

/-- A removed bed mesh profile stays in `State`. -/
theorem get_data_keeps_removed_profile :
    oneProfile.reports "bed_mesh" "profiles" = some (.obj (.cons "default" (.obj .nil) .nil)) ∧
    ((State.mk .null).reset.deliverAll [twoProfiles, oneProfile]).getData
      ["printer_state", "bed_mesh", "profiles"] ≠ .obj (.cons "default" (.obj .nil) .nil) := by
  decide

end State

end GuppyScreen
