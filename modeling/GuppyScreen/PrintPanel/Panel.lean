import Mathlib.Algebra.Group.Nat.Defs
import Mathlib.Data.List.Basic
import Mathlib.Logic.Function.Basic

/-!
# The print panel (print_panel.cpp)

`scans` holds Print for a file while Moonraker scans it: one entry per path, the
value is the connection the scan was asked on. A function that asks Moonraker
something returns what it asks next to the panel. Directories only decide which
file a view starts on, so the tree is the list of its files, and that file is
the caller's choice (`pick`).
-/

namespace GuppyScreen.PrintPanel

abbrev Path := String

structure File where
  path : Path
  modified : ℕ
  hasMetadata : Bool
  deriving DecidableEq

inductive Method where
  | metadata
  | metascan
  deriving DecidableEq

inductive View where
  | blank
  | details (path : Path)
  | scanning (path : Path)
  | noDetails (path : Path)
  deriving DecidableEq

structure Panel where
  opened : ℕ
  scans : Path → Option ℕ
  unscannable : Path → Option ℕ
  files : List File
  curFile : Option Path
  view : View
  printBtn : Bool

structure Ask where
  method : Method
  path : Path
  deriving DecidableEq

-- `opened` is a `uint32_t`.
def connectionId (opened : ℕ) : ℕ := opened % 2 ^ 32

namespace Panel

def init : Panel := ⟨0, fun _ => none, fun _ => none, [], none, .blank, true⟩

def now (p : Panel) : ℕ := connectionId p.opened

def scanLost (p : Panel) (path : Path) : Bool :=
  match p.scans path with
  | some t => t ≠ p.now
  | none => false

def updatePrintBtn (p : Panel) : Panel :=
  { p with printBtn :=
      match p.curFile with
      | some path => (p.scans path).isNone
      | none => true }

def showFileDetail (p : Panel) (f : File) : Panel × List Ask :=
  let view := if f.hasMetadata then .details f.path
    else if (p.scans f.path).isSome then .scanning f.path else p.view
  ({ p with view := view },
    if !f.hasMetadata || p.scanLost f.path then [⟨.metadata, f.path⟩] else [])

def selectFile (p : Panel) (f : File) : Panel × List Ask :=
  let (p, asks) := { p with curFile := some f.path }.showFileDetail f
  (p.updatePrintBtn, asks)

def findFile (p : Panel) (path : Path) : Option File := p.files.find? (·.path = path)

def select (p : Panel) (path : Path) : Panel × List Ask :=
  if p.curFile = some path then (p, [])
  else
    match p.findFile path with
    | none => (p, [])
    | some f => p.selectFile f

/-- The end of `show_dir`, where the selection starts over. -/
def startOver (p : Panel) (pick : Option Path) : Panel × List Ask :=
  match pick.bind p.findFile with
  | none => ({ p with curFile := none }.updatePrintBtn, [])
  | some f => p.selectFile f

-- The metadata of a file survives a refetch while its modified time does.
def relist (p : Panel) (answer : List (Path × ℕ)) : List File :=
  answer.map fun (path, modified) =>
    ⟨path, modified, (p.findFile path).any fun f => f.hasMetadata && f.modified = modified⟩

/-- The callback of `subscribe`. -/
def handleList (p : Panel) (answer : List (Path × ℕ)) (pick : Option Path) : Panel × List Ask :=
  let p := { p with files := p.relist answer }
  match p.curFile.bind p.findFile with
  | none => p.startOver pick
  | some kept =>
    if !kept.hasMetadata || p.scanLost kept.path then
      let (p, asks) := p.showFileDetail kept
      (p.updatePrintBtn, asks)
    else (p.updatePrintBtn, [])

/-! ### Metadata replies -/

/-- A later scan of this file has been asked for since. -/
def superseded (p : Panel) (path : Path) (method : Method) (askedOn : ℕ) : Bool :=
  match p.scans path with
  | some t => method = .metascan && t ≠ askedOn
  | none => false

def released (p : Panel) (path : Path) (method : Method) (found : Bool) : Bool :=
  match p.scans path with
  | some t => method = .metascan || (found && t ≠ p.now)
  | none => false

def release (p : Panel) (path : Path) (method : Method) (found : Bool) : Panel :=
  if p.released path method found then { p with scans := Function.update p.scans path none } else p

def setMetadata (p : Panel) (path : Path) : Panel :=
  { p with files := p.files.map fun f => if f.path = path then { f with hasMetadata := true }
    else f }

/-- A scan that failed is not asked for again on its connection. -/
def markUnscannable (p : Panel) (path : Path) (method : Method) (askedOn : ℕ) : Panel :=
  if method = .metascan then
    { p with unscannable := Function.update p.unscannable path (some askedOn) }
  else p

/-- The selected file has no metadata yet: ask for a scan, once per connection. -/
def missed (p : Panel) (path : Path) : Panel × List Ask :=
  if p.unscannable path = some p.now then ({ p with view := .noDetails path }.updatePrintBtn, [])
  else if p.scans path = some p.now then ({ p with view := .scanning path }.updatePrintBtn, [])
  else
    ({ p with
        view := .scanning path
        scans := Function.update p.scans path (some p.now) : Panel }.updatePrintBtn,
      [⟨.metascan, path⟩])

def handleMetadata (p : Panel) (path : Path) (method : Method) (askedOn : ℕ) (found : Bool) :
    Panel × List Ask :=
  if p.superseded path method askedOn then (p, [])
  else
    let p := p.release path method found
    if p.curFile ≠ some path then (p, [])
    else if found then ({ p.setMetadata path with view := .details path }.updatePrintBtn, [])
    else (p.markUnscannable path method askedOn).missed path

/-- The file `printer.print.start` is sent for. `ready`: `print_stats` is known and
nothing is printing or paused. -/
def handlePrintCallback (p : Panel) (ready : Bool) : Option Path :=
  match p.curFile with
  | some path => if (p.scans path).isNone && ready then some path else none
  | none => none

/-! ### What a step does to the hold -/

/-- The part of the panel that decides whether Print is held. -/
structure Hold where
  opened : ℕ
  scans : Path → Option ℕ
  unscannable : Path → Option ℕ
  curFile : Option Path

def hold (p : Panel) : Hold := ⟨p.opened, p.scans, p.unscannable, p.curFile⟩

theorem release_frame (p : Panel) (path : Path) (method : Method) (found : Bool) :
    (p.release path method found).opened = p.opened ∧
    (p.release path method found).unscannable = p.unscannable ∧
    (p.release path method found).curFile = p.curFile := by
  unfold release
  split_ifs
  · exact ⟨rfl, rfl, rfl⟩
  · exact ⟨rfl, rfl, rfl⟩

theorem markUnscannable_frame (p : Panel) (path : Path) (method : Method) (askedOn : ℕ) :
    (p.markUnscannable path method askedOn).opened = p.opened ∧
    (p.markUnscannable path method askedOn).scans = p.scans ∧
    (p.markUnscannable path method askedOn).curFile = p.curFile := by
  unfold markUnscannable
  split_ifs
  · exact ⟨rfl, rfl, rfl⟩
  · exact ⟨rfl, rfl, rfl⟩

theorem missed_cases (p : Panel) (path : Path) :
    ((p.unscannable path = some p.now ∨ p.scans path = some p.now) ∧
      (p.missed path).1.hold = p.hold ∧ (p.missed path).2 = []) ∨
    (p.unscannable path ≠ some p.now ∧ p.scans path ≠ some p.now ∧
      (p.missed path).1.hold = { p.hold with scans := Function.update p.scans path (some p.now) } ∧
      (p.missed path).2 = [⟨.metascan, path⟩]) := by
  unfold missed
  split_ifs with hu hs
  · exact Or.inl ⟨Or.inl hu, rfl, rfl⟩
  · exact Or.inl ⟨Or.inr hs, rfl, rfl⟩
  · exact Or.inr ⟨hu, hs, rfl, rfl⟩

theorem handleMetadata_frame (p : Panel) (path : Path) (method : Method) (askedOn : ℕ)
    (found : Bool) :
    (p.handleMetadata path method askedOn found).1.opened = p.opened ∧
    (p.handleMetadata path method askedOn found).1.curFile = p.curFile := by
  obtain ⟨hopened, _, hcur⟩ := release_frame p path method found
  obtain ⟨hmopened, _, hmcur⟩ :=
    markUnscannable_frame (p.release path method found) path method askedOn
  unfold handleMetadata
  dsimp only
  split_ifs
  · exact ⟨rfl, rfl⟩
  · exact ⟨hopened, hcur⟩
  · exact ⟨hopened, hcur⟩
  · rcases missed_cases
      ((p.release path method found).markUnscannable path method askedOn) path with
      ⟨_, hhold, _⟩ | ⟨_, _, hhold, _⟩
    · exact ⟨(congrArg Hold.opened hhold).trans (hmopened.trans hopened),
        (congrArg Hold.curFile hhold).trans (hmcur.trans hcur)⟩
    · exact ⟨(congrArg Hold.opened hhold).trans (hmopened.trans hopened),
        (congrArg Hold.curFile hhold).trans (hmcur.trans hcur)⟩

theorem handleMetadata_cases (p : Panel) (path : Path) (method : Method) (askedOn : ℕ)
    (found : Bool) :
    let out := p.handleMetadata path method askedOn found
    let scans := (p.release path method found).scans
    let unscannable := (p.markUnscannable path method askedOn).unscannable
    (p.superseded path method askedOn = true ∧
      out.1.scans = p.scans ∧ out.1.unscannable = p.unscannable ∧ out.2 = []) ∨
    (p.superseded path method askedOn = false ∧ (p.curFile ≠ some path ∨ found = true) ∧
      out.1.scans = scans ∧ out.1.unscannable = p.unscannable ∧ out.2 = []) ∨
    (p.superseded path method askedOn = false ∧ p.curFile = some path ∧
      (unscannable path = some p.now ∨ scans path = some p.now) ∧
      out.1.scans = scans ∧ out.1.unscannable = unscannable ∧ out.2 = []) ∨
    (p.superseded path method askedOn = false ∧ p.curFile = some path ∧ scans path ≠ some p.now ∧
      out.1.scans = Function.update scans path (some p.now) ∧ out.1.unscannable = unscannable ∧
      out.2 = [⟨.metascan, path⟩]) := by
  intro out scans unscannable
  obtain ⟨hopened, hun, hcur⟩ := release_frame p path method found
  have hmark : ((p.release path method found).markUnscannable path method askedOn).unscannable =
      unscannable := by
    unfold unscannable markUnscannable
    split_ifs
    · simp only [hun]
    · exact hun
  obtain ⟨hmopened, hmscans, _⟩ :=
    markUnscannable_frame (p.release path method found) path method askedOn
  have hout : out = p.handleMetadata path method askedOn found := rfl
  unfold handleMetadata at hout
  dsimp only at hout
  split_ifs at hout with hsup hsel hfound
  · rw [hout]
    exact Or.inl ⟨hsup, rfl, rfl, rfl⟩
  · rw [hout]
    refine Or.inr (Or.inl ⟨by simpa using hsup, Or.inl ?_, rfl, hun, rfl⟩)
    rw [← hcur]
    exact hsel
  · rw [hout]
    exact Or.inr (Or.inl ⟨by simpa using hsup, Or.inr hfound, rfl, hun, rfl⟩)
  · have hselected : p.curFile = some path := by
      rw [← hcur]
      simpa using hsel
    have hmissed :=
      missed_cases ((p.release path method found).markUnscannable path method askedOn) path
    rw [show ((p.release path method found).markUnscannable path method askedOn).now = p.now from
      congrArg connectionId (hmopened.trans hopened), hmscans, hmark] at hmissed
    rw [hout]
    rcases hmissed with ⟨hwhy, hhold, hasks⟩ | ⟨_, hs, hhold, hasks⟩
    · exact Or.inr (Or.inr (Or.inl ⟨by simpa using hsup, hselected, hwhy,
        (congrArg Hold.scans hhold).trans hmscans, (congrArg Hold.unscannable hhold).trans hmark,
        hasks⟩))
    · exact Or.inr (Or.inr (Or.inr ⟨by simpa using hsup, hselected, hs,
        congrArg Hold.scans hhold, (congrArg Hold.unscannable hhold).trans hmark, hasks⟩))

/-- Only the selection changed, only metadata is asked for, and it is asked for the
selection if its scan was lost. -/
structure Shows (p : Panel) (out : Panel × List Ask) : Prop where
  hold : out.1.hold = { p.hold with curFile := out.1.curFile }
  metadata : ∀ a ∈ out.2, a.method = .metadata
  asks : ∀ path, out.1.curFile = some path → p.scanLost path = true → ⟨.metadata, path⟩ ∈ out.2

theorem shows_showFileDetail {p q : Panel} {f : File}
    (hq : q.hold = { p.hold with curFile := some f.path }) :
    Shows p ((q.showFileDetail f).1.updatePrintBtn, (q.showFileDetail f).2) := by
  have hscans : q.scans = p.scans := congrArg Hold.scans hq
  have hopened : q.opened = p.opened := congrArg Hold.opened hq
  have hcur : q.curFile = some f.path := congrArg Hold.curFile hq
  have hlost : ∀ path, q.scanLost path = p.scanLost path := by
    intro path
    unfold scanLost now
    rw [hscans, hopened]
  refine ⟨?_, ?_, ?_⟩
  · show q.hold = { p.hold with curFile := q.curFile }
    rw [hcur]
    exact hq
  · intro a ha
    unfold showFileDetail at ha
    dsimp only at ha
    split_ifs at ha
    · rw [List.mem_singleton.mp ha]
    · cases ha
  · intro path hpath hl
    have heq : f.path = path := Option.some.inj (hcur.symm.trans hpath)
    rw [← heq, ← hlost] at hl
    unfold showFileDetail
    dsimp only
    rw [hl, Bool.or_true, if_pos rfl, heq]
    exact List.mem_singleton_self _

theorem shows_selectFile (p : Panel) (f : File) : Shows p (p.selectFile f) :=
  shows_showFileDetail (q := { p with curFile := some f.path }) rfl

theorem shows_startOver (p : Panel) (pick : Option Path) : Shows p (p.startOver pick) := by
  unfold startOver
  split
  · refine ⟨rfl, (fun a ha => nomatch ha), ?_⟩
    intro path hpath
    cases hpath
  · exact shows_selectFile p _

theorem select_cases (p : Panel) (path : Path) :
    p.select path = (p, []) ∨ Shows p (p.select path) := by
  unfold select
  split_ifs
  · exact Or.inl rfl
  · split
    · exact Or.inl rfl
    · exact Or.inr (shows_selectFile p _)

theorem shows_handleList (p : Panel) (answer : List (Path × ℕ)) (pick : Option Path) :
    Shows p (p.handleList answer pick) := by
  unfold handleList
  dsimp only
  split
  · have hover := shows_startOver { p with files := p.relist answer } pick
    exact ⟨hover.hold, hover.metadata, hover.asks⟩
  · rename_i kept hkept
    obtain ⟨path, hcur, hfind⟩ := Option.bind_eq_some_iff.mp hkept
    have hpath : kept.path = path := by simpa using List.find?_some hfind
    have hhold : ({ p with files := p.relist answer } : Panel).hold =
        { p.hold with curFile := some kept.path } := by
      rw [hpath, ← hcur]
      rfl
    split_ifs with hask
    · exact shows_showFileDetail hhold
    · simp only [Bool.or_eq_true, not_or, Bool.not_eq_true] at hask
      refine ⟨rfl, (fun a ha => nomatch ha), ?_⟩
      intro q hq hl
      have heq : path = q := Option.some.inj (hcur.symm.trans hq)
      rw [hpath, heq] at hask
      have hno : p.scanLost q = false := hask.2
      rw [hl] at hno
      cases hno

end Panel

end GuppyScreen.PrintPanel
