import TermuxX11.Lib.Run
import TermuxX11.VirtualKeys.Import
import TermuxX11.VirtualKeys.View

/-!
# Renaming beside the editor

The fragment with the list of profiles keeps its manager, which has read the files once; the
editor activity reads the file again and saves a profile of its own.  `renameProfile` moves the
file and then writes it from the copy of the manager, so what the editor has saved in between is
lost.

The state is the manager with the files, and the profiles of the editors that are open.  Between
two saves the elements of an editor may become anything.  `renamed` follows the last rename: what
was last saved to the old file, until the new file is written again or the manager does something
else.  A rename keeps the elements if the manager has seen the file as it is.
-/

namespace TermuxX11.VirtualKeys

open Java Run

/-! ### Editors and the manager -/

/-- The elements of a file, as far as they can be read. -/
def FileContent.elements (C : Coercions) : FileContent → Option (List (Option Content))
  | json j => (j.toObject.bind fun fields => JSONObject.getJSONArray fields "elements").map
      (List.map (readElement C))
  | text _ => none

/-- The name that a file gives. -/
def FileContent.name (C : Coercions) : FileContent → Option JString
  | json j => j.toObject.bind fun fields => JSONObject.getString C fields "name"
  | text _ => none

/-- A rename: the file that the profile had and the one that it should have, its name, and what
was last saved to the old file. -/
structure Renaming where
  old : Option Loc
  new : Option Loc
  name : JString
  latest : Option FileContent

/-- The new file holds the elements that were last saved to the old one, under the new name, and
the old file is gone. -/
structure Renaming.Done (C : Coercions) (disk : Disk) (r : Renaming) : Prop where
  gone : ∀ old, r.old = some old → r.new ≠ some old → old ∉ disk
  kept : ∃ new saved content, r.new = some new ∧ r.latest = some saved ∧
    disk.lookup new = some content ∧ content.name C = some r.name ∧
    content.elements C = saved.elements C

/-- An editor saves to `loc`. -/
def Renaming.written (loc : Loc) (content : FileContent) (r : Renaming) : Option Renaming :=
  if r.new = some loc then none
  else if r.old = some loc then some { r with latest := some content }
  else some r

/-- The rename that is followed after an operation of the manager. -/
def StorageOp.renaming (M : Mkdirs) (F : Folders) (m : Storage) (r : Option Renaming) :
    StorageOp → Option Renaming
  | scanProfiles => r
  | renameProfile i newName =>
    match m.profiles[i]? with
    | none => r
    | some l =>
      some ⟨l.origin, (M.make F m.disk newName).openFile newName, newName,
        l.origin.bind m.disk.lookup⟩
  | _ => none

/-- The manager of the fragment, the profiles of the open editors, and the last rename. -/
structure Desk where
  storage : Storage
  editors : List Profile := []
  renamed : Option Renaming := none

/-- What happens: an operation of the manager; `VirtualKeysEditorActivity.onCreate` and the first
layout; a save of the editor `k`, in a view of size `s`, with the elements it has by then; and
the end of an editor. -/
inductive DeskOp
  | manager (M : Mkdirs) (F : Folders) (op : StorageOp)
  | openEditor (F : Folders) (profileName : JString) (s : Size)
  | save (F : Folders) (k : ℕ) (s : Size) (elements : List Element)
  | closeEditor (k : ℕ)

/-- `save` of a profile whose elements are in a view of size `s`: where and what. -/
def Folders.saves (F : Folders) (s : Size) (p : Profile) : Option (Loc × FileContent) :=
  (p.getFile F).map fun loc => (loc, .json (p.document (some s)))

/-- It is what `save` of the editor's view writes. -/
theorem Folders.saves_of_view {F : Folders} {v : View} {p : Profile} (hp : v.profile = some p) :
    F.saves v.size p =
      (p.getFile F).bind fun loc => v.save.file.map fun j => (loc, .json j) := by
  have hfile : v.save.file = some (p.document (some v.size)) := by
    simp only [View.save, hp]
  rw [saves, hfile]
  cases p.getFile F with
  | none => rfl
  | some loc => rfl

namespace DeskOp

/-- One operation. -/
def step (C : Coercions) (t : Desk) : DeskOp → Desk
  | manager M F op =>
    { t with
      storage := op.step C M F t.storage
      renamed := op.renaming M F t.storage t.renamed }
  | openEditor F profileName s =>
    match F.load C t.storage.disk profileName with
    | none => t
    | some p => { t with editors := t.editors ++ [p.loadElements C s 0] }
  | save F k s elements =>
    match t.editors[k]? with
    | none => t
    | some p =>
      let p := { p with elements := elements }
      match F.saves s p with
      | none => { t with editors := t.editors.set k p }
      | some (loc, content) =>
        { storage := { t.storage with disk := t.storage.disk.insert loc content }
          editors := t.editors.set k p
          renamed := t.renamed.bind (Renaming.written loc content) }
  | closeEditor k => { t with editors := t.editors.eraseIdx k }

end DeskOp

/-! ### What a rename needs -/

/-- The profile is saved over its own file, which holds the elements that the manager has seen
there, and these come back when they are written, and so does the new name. -/
structure Storage.RenameKeeps (C : Coercions) (F : Folders) (m : Storage) (l : Kept)
    (newName : JString) : Prop where
  own : l.profile.getFile F = l.origin
  opens : (F.openFile newName).isSome
  name : WellFormed newName
  unchanged : ∃ old content, l.origin = some old ∧ m.disk.lookup old = some content ∧
    content.elements C = l.seen.elements C
  lasting : l.seen ≠ .json (l.profile.document none) → ∀ e ∈ l.profile.elements, e.Lasting

/-- A rename finds the file as the manager has seen it, and no editor goes on saving to a file
that was renamed. -/
def DeskOp.Careful (C : Coercions) (t : Desk) : DeskOp → Prop
  | manager _ F (.renameProfile i newName) =>
    ∀ l, t.storage.profiles[i]? = some l → t.storage.RenameKeeps C F l newName
  | save F k _ _ =>
    ∀ p loc r, t.editors[k]? = some p → p.getFile F = some loc → t.renamed = some r →
      r.old = some loc → r.new = some loc
  | _ => True

/-! ### What the manager has seen -/

/-- No file has a separator in its name. -/
def PlainDisk (disk : Disk) : Prop := ∀ loc ∈ disk, separator ∉ loc.entry

/-- The profile was read from what the manager has seen, or that was written of it. -/
def Kept.Sourced (C : Coercions) (l : Kept) : Prop :=
  (∃ name j, l.seen = .json j ∧ Profile.fromJSON C name j = some l.profile) ∨
    l.seen = .json (l.profile.document none)

section

variable {C : Coercions} {M : Mkdirs} {F : Folders} {m : Storage} {disk : Disk}

theorem plain_openFile {name : JString} {loc : Loc} (h : F.openFile name = some loc) :
    separator ∉ loc.entry := by
  rw [Folders.entry_of_locate (Folders.locate_of_openFile h), List.mem_append, not_or]
  exact ⟨Path.separator_notMem_basePart _, by decide⟩

theorem PlainDisk.insert (h : PlainDisk disk) {name : JString} {loc : Loc}
    (hloc : F.openFile name = some loc) (content : FileContent) :
    PlainDisk (disk.insert loc content) := by
  intro loc' hmem
  rcases (AList.mem_insert _).1 hmem with rfl | hmem
  · exact plain_openFile hloc
  · exact h loc' hmem

theorem PlainDisk.erase (h : PlainDisk disk) (loc : Loc) : PlainDisk (disk.erase loc) :=
  fun loc' hmem => h loc' (AList.mem_erase.1 hmem).2

theorem PlainDisk.save (h : PlainDisk disk) (p : Profile) : PlainDisk (F.save p disk) := by
  unfold Folders.save
  cases hloc : p.getFile F with
  | none => exact h
  | some loc => exact h.insert hloc _

theorem PlainDisk.renameTo (h : PlainDisk disk) (o n : JString) :
    PlainDisk (F.renameTo o n disk) := by
  unfold Folders.renameTo
  cases F.openFile o with
  | none => exact h
  | some old =>
    cases hnew : F.openFile n with
    | none => exact h
    | some new =>
      dsimp only
      cases disk.lookup old with
      | none => exact h
      | some content => exact (h.erase old).insert hnew content

/-- A file of the directory is opened under its stem. -/
theorem openFile_stem {loc loc' : Loc} (hfile : F.profileFile loc = true)
    (hplain : separator ∉ loc.entry) (hloc : F.openFile (stem loc.entry) = some loc') :
    loc' = loc := by
  obtain ⟨hdir, hsuffix⟩ := (Bool.and_eq_true _ _).mp hfile
  obtain ⟨q, hq⟩ := List.isSuffixOf_iff_suffix.1 hsuffix
  have hstem : stem loc.entry = q := by
    rw [← hq, stem_append]
  have hq' : separator ∉ q := fun hmem => hplain (hq ▸ List.mem_append_left _ hmem)
  rw [hstem] at hloc
  rw [(Folders.locate_eq_placeOf_iff (Folders.locate_of_openFile hloc)).2 hq', Folders.placeOf,
    hq, ← of_decide_eq_true hdir]

theorem sourced_scanProfiles (hplain : PlainDisk m.disk) :
    ∀ l ∈ (m.scanProfiles C F).profiles, l.Sourced C := by
  intro l hl
  obtain ⟨loc, hfile, -, hseen, hload⟩ := mem_scanProfiles.1 hl
  obtain ⟨loc', j, hopen, hlookup, hread⟩ := Folders.load_spec hload
  have hmem : loc ∈ m.disk := AList.lookup_isSome.1 (hseen ▸ rfl)
  obtain rfl := openFile_stem hfile (hplain loc hmem) hopen
  exact .inl ⟨_, j, Option.some.inj (hseen.symm.trans hlookup), hread⟩

/-- What the operations keep true of the manager. -/
structure Storage.Informed (C : Coercions) (m : Storage) : Prop where
  plain : PlainDisk m.disk
  sourced : ∀ l ∈ m.profiles, l.Sourced C

theorem sourced_concat {ls : List Kept} (hls : ∀ l ∈ ls, l.Sourced C) {l : Kept}
    (hl : l.Sourced C) : ∀ l' ∈ ls ++ [l], l'.Sourced C := by
  rw [List.forall_mem_append, List.forall_mem_singleton]
  exact ⟨hls, hl⟩

theorem informed_duplicateProfile (h : m.Informed C) (i : ℕ) (newName : JString) :
    (m.duplicateProfile C F i newName).Informed C := by
  unfold Storage.duplicateProfile
  cases m.profiles[i]? with
  | none => exact h
  | some source =>
    dsimp only
    cases hcopy : F.copyFile source.profile.name newName m.disk with
    | none => exact h
    | some w =>
      have hloc := Folders.openFile_of_copyFile hcopy
      have hplain := h.plain.insert hloc w.2
      dsimp only
      cases hload : F.load C (m.disk.insert w.1 w.2) newName with
      | none => exact ⟨hplain, h.sourced⟩
      | some p =>
        refine ⟨hplain, sourced_concat h.sourced (.inl ?_)⟩
        obtain ⟨loc, j, hopen, hlookup, hread⟩ := Folders.load_spec hload
        obtain rfl := Option.some.inj (hloc.symm.trans hopen)
        rw [AList.lookup_insert] at hlookup
        exact ⟨newName, j, Option.some.inj hlookup, hread⟩

theorem informed_renameProfile (h : m.Informed C) (i : ℕ) (newName : JString) :
    (m.renameProfile M F i newName).Informed C := by
  unfold Storage.renameProfile
  cases m.profiles[i]? with
  | none => exact h
  | some l =>
    refine ⟨(h.plain.renameTo _ _).save _, fun l' hl' => ?_⟩
    rcases List.mem_or_eq_of_mem_set hl' with hl' | rfl
    · exact h.sourced l' hl'
    · exact .inr rfl

theorem informed_deleteProfile (h : m.Informed C) (i : ℕ) :
    (m.deleteProfile F i).Informed C := by
  unfold Storage.deleteProfile
  cases m.profiles[i]? with
  | none => exact h
  | some l =>
    refine ⟨?_, fun l' hl' => h.sourced l' (List.mem_of_mem_eraseIdx hl')⟩
    dsimp only
    cases l.profile.getFile F with
    | none => exact h.plain
    | some loc => exact h.plain.erase loc

theorem informed_importProfile (h : m.Informed C) (doc : Option Json) :
    (m.importProfile C F doc).2.Informed C := by
  unfold Storage.importProfile
  cases m.imported C F doc with
  | none => exact h
  | some p =>
    dsimp only
    cases hloc : p.getFile F with
    | none => exact h
    | some loc => exact ⟨h.plain.insert hloc _, sourced_concat h.sourced (.inr rfl)⟩

theorem Storage.Informed.step (h : m.Informed C) (op : StorageOp) :
    (op.step C M F m).Informed C := by
  cases op with
  | scanProfiles => exact ⟨h.plain, sourced_scanProfiles h.plain⟩
  | createProfile name => exact ⟨h.plain.save _, sourced_concat h.sourced (.inr rfl)⟩
  | duplicateProfile i newName => exact informed_duplicateProfile h i newName
  | renameProfile i newName => exact informed_renameProfile h i newName
  | deleteProfile i => exact informed_deleteProfile h i
  | importProfile doc => exact informed_importProfile h doc

/-! ### A rename keeps the elements -/

theorem elements_document (p : Profile) :
    (FileContent.json (p.document none)).elements C =
      some (p.elements.map fun e => readElement C (e.toJSONObject none).written) := by
  rw [document_none]
  show some (List.map (readElement C) (p.elements.map fun e => (e.toJSONObject none).written)) = _
  rw [List.map_map]
  rfl

/-- The elements that were read, as the file has them. -/
theorem elements_of_fromJSON {name : JString} {j : Json} {p : Profile}
    (h : Profile.fromJSON C name j = some p) :
    (FileContent.json j).elements C = some (p.contents.map some) := by
  obtain ⟨json, js, cs, hjson, hjs, hcs, hshows, -⟩ := fromJSON_spec h
  have hread : js.map (readElement C) = cs.map some := by
    rw [← List.forall₂_eq_eq_eq, List.forall₂_map_left_iff, List.forall₂_map_right_iff]
    exact hcs
  simp only [FileContent.elements, hjson, Option.bind_some, hjs, Option.map_some, hread,
    contents_of_shows hshows]

/-- What is written of a profile has the elements that the manager has seen. -/
theorem Kept.Sourced.elements_document {l : Kept} (h : l.Sourced C)
    (hlast : l.seen ≠ .json (l.profile.document none) → ∀ e ∈ l.profile.elements, e.Lasting) :
    (FileContent.json (l.profile.document none)).elements C = l.seen.elements C := by
  by_cases hseen : l.seen = .json (l.profile.document none)
  · rw [hseen]
  · obtain ⟨name, j, hj, hread⟩ := h.resolve_right hseen
    rw [hj, elements_of_fromJSON hread, VirtualKeys.elements_document, Profile.contents,
      List.map_map]
    refine congrArg some (List.map_congr_left fun e he => ?_)
    have hun := unplaced_fromJSON hread e he
    exact (readElement_written_iff hun.valid hun.x hun.y).2 (hlast hseen e he)

theorem done_renameProfile {i : ℕ} {l : Kept} {newName : JString} (h : m.Informed C)
    (hi : m.profiles[i]? = some l) (hkeeps : m.RenameKeeps C F l newName) :
    Renaming.Done C (m.renameProfile M F i newName).disk
      ⟨l.origin, (M.make F m.disk newName).openFile newName, newName,
        l.origin.bind m.disk.lookup⟩ := by
  obtain ⟨old, content, hold, hlookup, hsame⟩ := hkeeps.unchanged
  obtain ⟨new, hnew⟩ := Option.isSome_iff_exists.1 hkeeps.opens
  have hafter := M.opens F m.disk newName newName new hnew (.inl rfl)
  have hopen : F.openFile l.profile.name = some old := hkeeps.own.trans hold
  -- `save` writes over the file that has been moved
  have hfile : (l.profile.setName newName).getFile (M.make F m.disk newName) = some new := hafter
  have hdisk : (m.renameProfile M F i newName).disk =
      (F.renameTo l.profile.name newName m.disk).insert new
        (.json ((l.profile.setName newName).document none)) := by
    simp only [Storage.renameProfile, hi, Folders.save, hfile]
  rw [hdisk, hafter, hold]
  have hname : (FileContent.json ((l.profile.setName newName).document none)).name C =
      some (written newName) := by
    rw [document_none]
    rfl
  refine ⟨?_, new, content, _, rfl, hlookup, AList.lookup_insert _,
    hname.trans (congrArg some hkeeps.name), ?_⟩
  · rintro old' ⟨⟩ hne hmem
    have hne : new ≠ old := fun heq => hne (congrArg some heq)
    rcases (AList.mem_insert _).1 hmem with heq | hmem
    · exact hne heq.symm
    · have hthere : old ∈ m.disk := AList.lookup_isSome.1 (hlookup ▸ rfl)
      have hgone := Storage.lookup_renameTo hopen hnew hthere hne
      exact absurd hmem (AList.lookup_eq_none.1 hgone)
  · -- the name is not among the elements
    have hl : l ∈ m.profiles := List.mem_of_getElem? hi
    rw [hsame, ← (h.sourced l hl).elements_document hkeeps.lasting, elements_document,
      elements_document]
    rfl

/-! ### Runs -/

/-- Renames are done, and the manager has seen what it has. -/
structure Desk.Sound (C : Coercions) (t : Desk) : Prop where
  informed : t.storage.Informed C
  done : ∀ r, t.renamed = some r → r.Done C t.storage.disk

/-- Another file is written. -/
theorem Renaming.Done.insert {r : Renaming} {loc : Loc} (h : r.Done C disk)
    (hold : r.old = some loc → r.new = some loc) (hnew : r.new ≠ some loc)
    (content : FileContent) : r.Done C (disk.insert loc content) := by
  obtain ⟨new, saved, there, hn, hs, hlookup, hrest⟩ := h.kept
  refine ⟨fun old ho hne hmem => ?_, new, saved, there, hn, hs, ?_, hrest⟩
  · rcases (AList.mem_insert _).1 hmem with rfl | hmem
    · exact hnew (hold ho)
    · exact h.gone old ho hne hmem
  · rw [AList.lookup_insert_ne, hlookup]
    rintro rfl
    exact hnew hn

theorem sound_save {t : Desk} (h : t.Sound C) {k : ℕ} {s : Size} {elements : List Element}
    (hc : (DeskOp.save F k s elements).Careful C t) :
    ((DeskOp.save F k s elements).step C t).Sound C := by
  simp only [DeskOp.step]
  cases hk : t.editors[k]? with
  | none => exact h
  | some p =>
    have hsame : ({ p with elements := elements } : Profile).getFile F = p.getFile F := rfl
    simp only [Folders.saves, hsame]
    cases hloc : p.getFile F with
    | none => exact ⟨h.informed, h.done⟩
    | some loc =>
      refine ⟨⟨h.informed.plain.insert hloc _, h.informed.sourced⟩, fun r hr => ?_⟩
      obtain ⟨r₀, hr₀, hr⟩ := Option.bind_eq_some_iff.1 hr
      have hold : r₀.old = some loc → r₀.new = some loc := hc p loc r₀ hk hloc hr₀
      unfold Renaming.written at hr
      split_ifs at hr with hnew ho
      · exact absurd (hold ho) hnew
      · obtain rfl := Option.some.inj hr
        exact (h.done r₀ hr₀).insert hold hnew _

theorem sound_manager {t : Desk} (h : t.Sound C) {op : StorageOp}
    (hc : (DeskOp.manager M F op).Careful C t) : ((DeskOp.manager M F op).step C t).Sound C := by
  refine ⟨h.informed.step op, fun r hr => ?_⟩
  cases op with
  | scanProfiles => exact h.done r hr
  | renameProfile i newName =>
    simp only [DeskOp.step, StorageOp.renaming, StorageOp.step] at hr ⊢
    cases hi : t.storage.profiles[i]? with
    | none =>
      simp only [hi] at hr
      simp only [Storage.renameProfile, hi]
      exact h.done r hr
    | some l =>
      simp only [hi, Option.some.injEq] at hr
      rw [← hr]
      exact done_renameProfile h.informed hi (hc l hi)
  | createProfile name => cases hr
  | duplicateProfile i newName => cases hr
  | deleteProfile i => cases hr
  | importProfile doc => cases hr

theorem Desk.Sound.step {t : Desk} (h : t.Sound C) {op : DeskOp} (hc : op.Careful C t) :
    (op.step C t).Sound C := by
  cases op with
  | manager M F op => exact sound_manager h hc
  | openEditor F profileName s =>
    simp only [DeskOp.step]
    cases F.load C t.storage.disk profileName with
    | none => exact h
    | some p => exact ⟨h.informed, h.done⟩
  | save F k s elements => exact sound_save h hc
  | closeEditor k => exact ⟨h.informed, h.done⟩

end

/-- **Renames keep what was saved**: if every rename finds its file with the elements that the
manager has seen there, and no editor goes on saving to a file that was renamed, then at any time
after a rename the new file holds the elements last saved to the old one, which is gone. -/
theorem renamed_done {C : Coercions} {disk : Disk} (hdisk : PlainDisk disk) {ops : List DeskOp}
    (h : Always (DeskOp.step C) (DeskOp.Careful C) { storage := { disk := disk } } ops)
    {r : Renaming}
    (hr : (exec (DeskOp.step C) { storage := { disk := disk } } ops).renamed = some r) :
    r.Done C (exec (DeskOp.step C) { storage := { disk := disk } } ops).storage.disk := by
  have hstart : Desk.Sound C { storage := { disk := disk } } := by
    refine ⟨⟨hdisk, fun l hl => absurd hl List.not_mem_nil⟩, ?_⟩
    rintro r ⟨⟩
  have hend := exec_invariant_of_always (fun t op ht hop => ht.step hop) hstart h
  exact hend.done r hr

/-- The list is shown, and in the editor a button is added to the profile `a`. -/
def addButton : List DeskOp :=
  [.manager .none plainFolders .scanProfiles, .openEditor plainFolders "a" ⟨1000, 1000⟩,
    .save plainFolders 0 ⟨1000, 1000⟩ [{ view := true, x := 500, y := 500 }]]

/-- The list is shown, with a new manager. -/
def showList : DeskOp := .manager .none plainFolders .scanProfiles

/-- The first profile of the list is renamed. -/
def renameFirst : DeskOp := .manager .none plainFolders (.renameProfile 0 "b")

/-- The run of some operations, beginning with the file of the empty profile. -/
def runFrom (ops : List DeskOp) : Desk :=
  exec (DeskOp.step .strict) { storage := { disk := emptyProfile } } ops

theorem plainDisk_emptyProfile : PlainDisk emptyProfile := by
  intro loc hmem
  rcases (AList.mem_insert _).1 hmem with rfl | hmem
  · decide
  · exact absurd hmem (AList.notMem_empty _)

theorem careful_addButton :
    Always (DeskOp.step .strict) (DeskOp.Careful .strict)
      { storage := { disk := emptyProfile } } addButton := by
  have hnone : (runFrom (addButton.take 2)).renamed.isNone = true := by
    decide +kernel
  refine ⟨trivial, trivial, fun p loc r _ _ hr => ?_, trivial⟩
  have hr : (runFrom (addButton.take 2)).renamed = some r := hr
  rw [hr] at hnone
  cases hnone

/-- The list as it is shown after the edit. -/
theorem renameKeeps_scanned {l : Kept}
    (hl : l ∈ ((runFrom addButton).storage.scanProfiles .strict plainFolders).profiles) :
    ((runFrom addButton).storage.scanProfiles .strict plainFolders).RenameKeeps .strict
      plainFolders l "b" := by
  have hown : ∀ l ∈ ((runFrom addButton).storage.scanProfiles .strict plainFolders).profiles,
      l.profile.getFile plainFolders = l.origin := by
    decide +kernel
  have hlast : ∀ l ∈ ((runFrom addButton).storage.scanProfiles .strict plainFolders).profiles,
      ∀ e ∈ l.profile.elements, e.attributes.saved = e.attributes ∧ 0 ≤ e.ratioX ∧
        0 ≤ e.ratioY ∧ e.failsAt none = none ∧ WellFormed e.text := by
    decide +kernel
  obtain ⟨old, -, hold, hseen, -⟩ := mem_scanProfiles.1 hl
  refine ⟨hown l hl, by decide +kernel, wellFormed_lit "b", ⟨old, l.seen, hold, hseen, rfl⟩,
    fun _ e he => ?_⟩
  obtain ⟨hsaved, hx, hy, hfinite, htext⟩ := hlast l hl e he
  exact ⟨hsaved, hx, hy, hfinite, htext⟩

theorem careful_showList_renameFirst {t : Desk}
    (h : ∀ l ∈ (t.storage.scanProfiles .strict plainFolders).profiles,
      (t.storage.scanProfiles .strict plainFolders).RenameKeeps .strict plainFolders l "b") :
    Always (DeskOp.step .strict) (DeskOp.Careful .strict) t [showList, renameFirst] := by
  have hstorage : (DeskOp.step .strict t showList).storage =
      t.storage.scanProfiles .strict plainFolders := by
    simp only [DeskOp.step, showList, StorageOp.step]
  simp only [Always, DeskOp.Careful, renameFirst, hstorage]
  refine ⟨trivial, fun l hl => ?_, trivial⟩
  exact h l (List.mem_of_getElem? hl)

/-- The list is shown anew before the profile is renamed, and the button is kept. -/
theorem renamed_done_scanned :
    ∃ r, (runFrom (addButton ++ [showList, renameFirst])).renamed = some r ∧
      r.Done .strict (runFrom (addButton ++ [showList, renameFirst])).storage.disk := by
  have hrenamed : (runFrom (addButton ++ [showList, renameFirst])).renamed.isSome = true := by
    decide +kernel
  obtain ⟨r, hr⟩ := Option.isSome_iff_exists.1 hrenamed
  have hcareful := careful_showList_renameFirst fun l => renameKeeps_scanned
  exact ⟨r, hr, renamed_done plainDisk_emptyProfile
    (always_append.2 ⟨careful_addButton, hcareful⟩) hr⟩

/-- The profile is renamed in the list that was shown before the edit, and the button is lost. -/
theorem rename_loses_edit :
    PlainDisk emptyProfile ∧ ∃ r, (runFrom (addButton ++ [renameFirst])).renamed = some r ∧
      ¬ r.Done .strict (runFrom (addButton ++ [renameFirst])).storage.disk := by
  have hrenamed : (runFrom (addButton ++ [renameFirst])).renamed.map (fun r =>
      (r.new, (r.latest.bind (FileContent.elements .strict)).map List.length)) =
      some (some ⟨["files", "virtualkeys"], "b.icp"⟩, some 1) := by
    decide +kernel
  have hfile : ((runFrom (addButton ++ [renameFirst])).storage.disk.lookup
      ⟨["files", "virtualkeys"], "b.icp"⟩).map (fun content =>
        (content.elements .strict).map List.length) = some (some 0) := by
    decide +kernel
  obtain ⟨r, hr, hval⟩ := Option.map_eq_some_iff.1 hrenamed
  obtain ⟨hnew, hlatest⟩ := Prod.mk.inj hval
  refine ⟨plainDisk_emptyProfile, r, hr, fun hdone => ?_⟩
  obtain ⟨new, saved, content, hn, hs, hc, -, hsame⟩ := hdone.kept
  obtain rfl := Option.some.inj (hnew.symm.trans hn)
  rw [hs, Option.bind_some, ← hsame] at hlatest
  rw [hc, Option.map_some, hlatest] at hfile
  cases hfile

end TermuxX11.VirtualKeys
