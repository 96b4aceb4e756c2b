import TermuxX11.Lib.Path
import TermuxX11.VirtualKeys.Document

/-!
# Names and places of the profile files

The file of a profile is the path `virtualkeys/` + name + `.icp`, and a name may be any text: with
separators in it the path leads elsewhere, or to the same file as another name.  So files are
kept here by the place they are in, and a name is looked up by following its path through the
directories that exist.

`Folders` is what the file system says about directories at one moment, without links.  `save`
makes the directories on the way to its file first; what comes of that is given by `Mkdirs`.
Directories themselves are never moved or deleted here.

`Kept` adds to each profile the file it was loaded from, copied to or created as.  An exception
ends an operation; what it has done to the files by then stays done.
-/

namespace TermuxX11.VirtualKeys

open Java

/-! ### Places -/

/-- An entry of a directory. -/
structure Loc where
  dir : List JString
  entry : JString
  deriving DecidableEq, Repr

/-- The content of a file: a JSON document, or a text that is none. -/
inductive FileContent
  | json (j : Json)
  | text (t : JString)

/-- The files by place. -/
abbrev Disk := AList fun _ : Loc => FileContent

/-- The directory `virtualkeys`, all directories, and the names that the system takes for a
file. -/
structure Folders where
  home : List JString
  dirs : List (List JString)
  accepts : JString → Bool

/-- The unit of `/`. -/
def separator : UInt16 := 0x2F

/-- The unit of `.`. -/
def dot : UInt16 := 0x2E

namespace Folders

variable (F : Folders)

/-- Where the path of a name leads. -/
def locate (name : JString) : Option Loc :=
  if F.accepts name then
    (Path.walk dot F.dirs F.home ((Path.dirPart separator name).splitOn separator)).map fun dir =>
      ⟨dir, Path.basePart separator name ++ lit ".icp"⟩
  else none

theorem lawfulBEq_path : LawfulBEq (List JString) := inferInstance

section

attribute [local instance] lawfulBEq_path

/-- The file that is opened under a name: a directory cannot be. -/
def openFile (name : JString) : Option Loc :=
  (F.locate name).filter fun loc => loc.dir ++ [loc.entry] ∉ F.dirs

/-- `File.exists`. -/
def fileExists (disk : Disk) (name : JString) : Bool :=
  match F.locate name with
  | none => false
  | some loc => loc ∈ disk || loc.dir ++ [loc.entry] ∈ F.dirs

end

/-- The place is that of a profile file: directly in `virtualkeys`, with the ending. -/
def profileFile (loc : Loc) : Bool :=
  loc.dir = F.home && (lit ".icp").isSuffixOf loc.entry

end Folders

/-- The name of a file without its ending. -/
def stem (entry : JString) : JString := entry.take (entry.length - 4)

/-- What `mkdirs` for the file of a name makes of the folders, as far as it succeeds.  It makes
nothing where the file can be opened, and no directory where a file is. -/
structure Mkdirs where
  make : Folders → Disk → JString → Folders
  home : ∀ F disk name, (make F disk name).home = F.home
  opens : ∀ F disk name n loc, F.openFile n = some loc → n = name ∨ loc ∈ disk →
    (make F disk name).openFile n = some loc

/-- `getFile`, as the place that the path leads to. -/
def Profile.getFile (F : Folders) (p : Profile) : Option Loc := F.openFile p.name

/-! ### The manager -/

/-- A profile of the list, with the file it was loaded from or written to, if it could be written,
and what that file was seen to hold. -/
structure Kept where
  profile : Profile
  origin : Option Loc
  seen : FileContent

/-- The files and the list of the manager. -/
structure Storage where
  disk : Disk
  profiles : List Kept := []

/-- `VirtualKeysProfile.load`: `none` if there is no such file or it cannot be read. -/
def Folders.load (F : Folders) (C : Coercions) (disk : Disk) (name : JString) : Option Profile :=
  match (F.openFile name).bind disk.lookup with
  | some (.json j) => Profile.fromJSON C name j
  | _ => none

/-- `save` of a profile whose elements have no view; an exception is ignored. -/
def Folders.save (F : Folders) (p : Profile) (disk : Disk) : Disk :=
  match p.getFile F with
  | none => disk
  | some loc => disk.insert loc (.json (p.document none))

/-- `oldFile.renameTo(newFile)`, if there is an old file; it may fail. -/
def Folders.renameTo (F : Folders) (old new : JString) (disk : Disk) : Disk :=
  match F.openFile old, F.openFile new with
  | some old, some new =>
    match disk.lookup old with
    | none => disk
    | some content => (disk.erase old).insert new content
  | _, _ => disk

/-- `copyFile`: where it writes and what, unless it throws.  A file that is copied onto itself is
emptied before it is read. -/
def Folders.copyFile (F : Folders) (src dst : JString) (disk : Disk) :
    Option (Loc × FileContent) := do
  let src ← F.openFile src
  let content ← disk.lookup src
  let dst ← F.openFile dst
  some (dst, if dst = src then .text "" else content)

/-- The names that `importProfile` tries, in order. -/
def candidateName (jsonName : JString) (counter : ℕ) : JString :=
  if counter = 0 then jsonName else jsonName ++ lit ("_" ++ counter.repr)

/-- The first name of `importProfile` under which there is no file. -/
def Folders.freeName (F : Folders) (disk : Disk) (jsonName : JString) : Option JString :=
  ((List.range (disk.keys.length + F.dirs.length + 1)).map (candidateName jsonName)).find?
    fun n => !F.fileExists disk n

namespace Storage

variable (C : Coercions) (m : Storage)

/-- What `scanProfiles` lists for a file. -/
def scanned (F : Folders) (loc : Loc) : Option Kept :=
  match F.load C m.disk (stem loc.entry), m.disk.lookup loc with
  | some p, some content => some ⟨p, some loc, content⟩
  | _, _ => none

variable {C m} in
theorem scanned_eq_some {F : Folders} {loc : Loc} {l : Kept} :
    m.scanned C F loc = some l ↔ ∃ p content, F.load C m.disk (stem loc.entry) = some p ∧
      m.disk.lookup loc = some content ∧ l = ⟨p, some loc, content⟩ := by
  unfold scanned
  cases F.load C m.disk (stem loc.entry) with
  | none => simp
  | some p =>
    cases m.disk.lookup loc with
    | none => simp
    | some content => simp [eq_comm]

/-- `scanProfiles`. -/
def scanProfiles (F : Folders) : Storage :=
  { m with profiles := (m.disk.keys.filter F.profileFile).filterMap (m.scanned C F) }

/-- `createProfile`.  The profile is listed even if it could not be saved. -/
def createProfile (M : Mkdirs) (F : Folders) (name : JString) : Storage :=
  let p : Profile := { name := name }
  let F := M.make F m.disk name
  { disk := F.save p m.disk
    profiles := m.profiles ++ [⟨p, p.getFile F, .json (p.document none)⟩] }

/-- `duplicateProfile`, on the profile at index `i`. -/
def duplicateProfile (F : Folders) (i : ℕ) (newName : JString) : Storage :=
  match m.profiles[i]? with
  | none => m
  | some source =>
    match F.copyFile source.profile.name newName m.disk with
    | none => m
    | some (loc, content) =>
      let disk := m.disk.insert loc content
      match F.load C disk newName with
      | none => { m with disk := disk }
      | some p => { disk := disk, profiles := m.profiles ++ [⟨p, some loc, content⟩] }

/-- `renameProfile`, on the profile at index `i`. -/
def renameProfile (M : Mkdirs) (F : Folders) (i : ℕ) (newName : JString) : Storage :=
  match m.profiles[i]? with
  | none => m
  | some l =>
    let p := l.profile.setName newName
    let F' := M.make F m.disk newName
    { disk := F'.save p (F.renameTo l.profile.name newName m.disk)
      profiles := m.profiles.set i
        ⟨p, (p.getFile F').or l.origin, .json (p.document none)⟩ }

/-- `deleteProfile`, on the profile at index `i`. -/
def deleteProfile (F : Folders) (i : ℕ) : Storage :=
  match m.profiles[i]? with
  | none => m
  | some l =>
    { disk := match l.profile.getFile F with
        | none => m.disk
        | some loc => m.disk.erase loc
      profiles := m.profiles.eraseIdx i }

/-- The profile that `importProfile` reads, under its final name; `doc` is the text as a
document, if it is one. -/
def imported (F : Folders) (doc : Option Json) : Option Profile := do
  let j ← doc
  let json ← j.toObject
  let jsonName ← JSONObject.getString C json "name"
  if jsonName = [] then none
  else
    let finalName ← F.freeName m.disk jsonName
    let p ← Profile.fromJSON C finalName j
    if p.validate then some (p.setName finalName) else none

/-- `importProfile`: the profile, or `none` if it throws, and what there is afterwards. -/
def importProfile (F : Folders) (doc : Option Json) : Option Profile × Storage :=
  match m.imported C F doc with
  | none => (none, m)
  | some p =>
    match p.getFile F with
    | none => (none, m)
    | some loc =>
      let content := FileContent.json (p.document none)
      (some p,
        { disk := m.disk.insert loc content, profiles := m.profiles ++ [⟨p, some loc, content⟩] })

end Storage

/-- `exportProfile`: the document that is written. -/
def exportProfile (p : Profile) : Option Json :=
  if p.elements.isEmpty then none else some (p.document none)

/-- The operations of the manager. -/
inductive StorageOp
  | scanProfiles
  | createProfile (name : JString)
  | duplicateProfile (i : ℕ) (newName : JString)
  | renameProfile (i : ℕ) (newName : JString)
  | deleteProfile (i : ℕ)
  | importProfile (doc : Option Json)

namespace StorageOp

/-- One operation. -/
def step (C : Coercions) (M : Mkdirs) (F : Folders) (m : Storage) : StorageOp → Storage
  | scanProfiles => m.scanProfiles C F
  | createProfile name => m.createProfile M F name
  | duplicateProfile i newName => m.duplicateProfile C F i newName
  | renameProfile i newName => m.renameProfile M F i newName
  | deleteProfile i => m.deleteProfile F i
  | importProfile doc => (m.importProfile C F doc).2

/-- The name under which the operation saves, and for whose file it makes the directories. -/
def saved (m : Storage) : StorageOp → Option JString
  | createProfile name => some name
  | renameProfile i newName => (m.profiles[i]?).map fun _ => newName
  | _ => none

/-- The file of the profile that an operation is applied to. -/
def own (m : Storage) : StorageOp → Option Loc
  | renameProfile i _ => (m.profiles[i]?).bind Kept.origin
  | deleteProfile i => (m.profiles[i]?).bind Kept.origin
  | _ => none

end StorageOp

/-! ### A free name -/

theorem Folders.entry_of_locate {F : Folders} {name : JString} {loc : Loc}
    (h : F.locate name = some loc) : loc.entry = Path.basePart separator name ++ lit ".icp" := by
  unfold Folders.locate at h
  split_ifs at h
  obtain ⟨dir, -, rfl⟩ := Option.map_eq_some_iff.1 h
  rfl

/-- What a candidate adds to the name. -/
def counterPart (counter : ℕ) : JString := if counter = 0 then [] else lit ("_" ++ counter.repr)

theorem candidateName_eq (jsonName : JString) (k : ℕ) :
    candidateName jsonName k = jsonName ++ counterPart k := by
  unfold candidateName counterPart
  split_ifs
  · rw [List.append_nil]
  · rfl

theorem counterPart_injective : Function.Injective counterPart := by
  have hne (k : ℕ) (hk : k ≠ 0) : counterPart k ≠ [] := by
    rw [counterPart, if_neg hk, lit_append]
    exact List.append_ne_nil_of_left_ne_nil (by decide) _
  intro a b h
  by_cases ha : a = 0
  · by_contra hab
    refine hne b (fun hb => hab (ha.trans hb.symm)) ?_
    rw [← h, counterPart, if_pos ha]
  · by_cases hb : b = 0
    · refine absurd ?_ (hne a ha)
      rw [h, counterPart, if_pos hb]
    · rw [counterPart, counterPart, if_neg ha, if_neg hb] at h
      exact Nat.repr_injective (String.append_right_inj _ |>.1 (lit_injective h))

theorem separator_notMem_counterPart (k : ℕ) : separator ∉ counterPart k := by
  unfold counterPart
  split_ifs with hk
  · exact List.not_mem_nil
  · intro hmem
    have hmem : '/' ∈ ("_" ++ k.repr).toList := (Unicode.mem_utf16_iff (by decide)).1 hmem
    rw [String.toList_append, Nat.toList_repr, List.mem_append] at hmem
    rcases hmem with hmem | hmem
    · exact absurd hmem (by decide)
    · have := Nat.isDigit_of_mem_toDigits (by decide) (by decide) hmem
      cases this

/-- The candidates lead to different places. -/
theorem Folders.locate_candidateName_inj {F : Folders} {jsonName : JString} {a b : ℕ} {loc : Loc}
    (ha : F.locate (candidateName jsonName a) = some loc)
    (hb : F.locate (candidateName jsonName b) = some loc) : a = b := by
  have heq := (entry_of_locate ha).symm.trans (entry_of_locate hb)
  rw [candidateName_eq, candidateName_eq, Path.basePart_append (separator_notMem_counterPart a),
    Path.basePart_append (separator_notMem_counterPart b), List.append_assoc, List.append_assoc,
    List.append_cancel_left_eq, List.append_cancel_right_eq] at heq
  exact counterPart_injective heq

/-- The loop of `importProfile` ends: there are more candidates than files and directories. -/
theorem Folders.freeName_isSome (F : Folders) (disk : Disk) (jsonName : JString) :
    (F.freeName disk jsonName).isSome := by
  by_contra hnone
  rw [freeName, List.find?_isSome] at hnone
  push Not at hnone
  -- the candidates would lead to more places than are taken
  set n := disk.keys.length + F.dirs.length + 1 with hn
  set places := (List.range n).filterMap fun k => F.locate (candidateName jsonName k) with hplaces
  set taken := disk.keys ++ F.dirs.map fun d => (⟨d.dropLast, d.getLast?.getD []⟩ : Loc) with htaken
  have hex : ∀ k ∈ List.range n, F.fileExists disk (candidateName jsonName k) = true := by
    intro k hk
    simpa using hnone _ (List.mem_map_of_mem hk)
  have hsub : places ⊆ taken := by
    intro loc hloc
    obtain ⟨k, hk, hloc⟩ := List.mem_filterMap.1 hloc
    have hk := hex k hk
    rw [fileExists, hloc] at hk
    simp only [Bool.or_eq_true, decide_eq_true_eq] at hk
    rw [htaken, List.mem_append]
    refine hk.imp AList.mem_keys.1 fun hdir => List.mem_map.2 ⟨_, hdir, ?_⟩
    simp
  have hnodup : places.Nodup :=
    List.nodup_range.filterMap fun _ _ _ => locate_candidateName_inj
  have hlength : places.length = n := by
    rw [hplaces, List.filterMap_length_eq_length.2, List.length_range]
    intro k hk
    have hk := hex k hk
    unfold fileExists at hk
    cases hloc : F.locate (candidateName jsonName k) with
    | none =>
      rw [hloc] at hk
      cases hk
    | some loc => rfl
  have hle := (hnodup.subperm hsub).length_le
  rw [hlength, htaken, List.length_append, List.length_map] at hle
  omega

/-! ### Other files -/

/-- Every profile file but `own` is there afterwards with the same content. -/
def Frame (F : Folders) (own : Option Loc) (disk disk' : Disk) : Prop :=
  ∀ loc c, F.profileFile loc = true → own ≠ some loc → disk.lookup loc = some c →
    disk'.lookup loc = some c

variable {F : Folders} {own : Option Loc} {disk : Disk}

theorem frame_refl (F : Folders) (own : Option Loc) (disk : Disk) : Frame F own disk disk :=
  fun _ _ _ _ h => h

theorem frame_insert_iff {loc : Loc} {content : FileContent} :
    Frame F own disk (disk.insert loc content) ↔
      ∀ c, F.profileFile loc = true → own ≠ some loc → disk.lookup loc = some c → c = content := by
  constructor
  · intro h c hfile hown hc
    have := h loc c hfile hown hc
    rw [AList.lookup_insert] at this
    exact (Option.some.inj this).symm
  · intro h loc' c hfile hown hc
    by_cases heq : loc' = loc
    · subst heq
      rw [AList.lookup_insert, h c hfile hown hc]
    · rwa [AList.lookup_insert_ne heq]

theorem frame_erase_iff {loc : Loc} :
    Frame F own disk (disk.erase loc) ↔
      (F.profileFile loc = true → loc ∈ disk → own = some loc) := by
  constructor
  · intro h hfile hmem
    by_contra hown
    obtain ⟨c, hc⟩ := Option.isSome_iff_exists.1 (AList.lookup_isSome.2 hmem)
    have := h loc c hfile hown hc
    rw [AList.lookup_erase] at this
    cases this
  · intro h loc' c hfile hown hc
    by_cases heq : loc' = loc
    · subst heq
      exact absurd (h hfile (AList.lookup_isSome.1 (hc ▸ rfl))) hown
    · rwa [AList.lookup_erase_ne heq]

theorem frame_save_iff {F' : Folders} {p : Profile} :
    Frame F own disk (F'.save p disk) ↔
      ∀ loc c, p.getFile F' = some loc → F.profileFile loc = true → own ≠ some loc →
        disk.lookup loc = some c → c = .json (p.document none) := by
  unfold Folders.save
  cases p.getFile F' with
  | none => exact iff_of_true (frame_refl F own disk) nofun
  | some loc =>
    rw [frame_insert_iff]
    constructor
    · rintro h loc' c ⟨⟩ hfile hown hc
      exact h c hfile hown hc
    · intro h c hfile hown hc
      exact h loc c rfl hfile hown hc

namespace Folders

theorem locate_of_openFile {name : JString} {loc : Loc} (h : F.openFile name = some loc) :
    F.locate name = some loc :=
  (Option.filter_eq_some_iff.1 h).1

theorem notMem_of_not_fileExists {name : JString} {loc : Loc}
    (h : F.fileExists disk name = false) (hloc : F.openFile name = some loc) : loc ∉ disk := by
  rw [fileExists, locate_of_openFile hloc] at h
  exact of_decide_eq_false (Bool.or_eq_false_iff.1 h).1

theorem not_fileExists_freeName {jsonName name : JString}
    (h : F.freeName disk jsonName = some name) : F.fileExists disk name = false := by
  have := List.find?_some h
  simpa using this

/-- What `load` has read. -/
theorem load_spec {C : Coercions} {name : JString} {p : Profile}
    (h : F.load C disk name = some p) :
    ∃ loc j, F.openFile name = some loc ∧ disk.lookup loc = some (.json j) ∧
      Profile.fromJSON C name j = some p := by
  unfold load at h
  cases hc : (F.openFile name).bind disk.lookup with
  | none =>
    rw [hc] at h
    cases h
  | some content =>
    obtain ⟨loc, hloc, hlookup⟩ := Option.bind_eq_some_iff.1 hc
    rw [hc] at h
    cases content with
    | text t => cases h
    | json j => exact ⟨loc, j, hloc, hlookup, h⟩

/-- A copy is written where the new name leads. -/
theorem openFile_of_copyFile {src dst : JString} {w : Loc × FileContent}
    (h : F.copyFile src dst disk = some w) : F.openFile dst = some w.1 := by
  obtain ⟨src, -, h⟩ := Option.bind_eq_some_iff.1 h
  obtain ⟨content, -, h⟩ := Option.bind_eq_some_iff.1 h
  obtain ⟨dst, hdst, h⟩ := Option.bind_eq_some_iff.1 h
  rw [hdst, ← Option.some.inj h]

end Folders

namespace Storage

variable {C : Coercions} {m : Storage} {l : Kept}

/-- The copy is written where no profile file is, or where it is already. -/
def DuplicateSpares (F : Folders) (m : Storage) (l : Kept) (newName : JString) : Prop :=
  ∀ loc content c, F.copyFile l.profile.name newName m.disk = some (loc, content) →
    F.profileFile loc = true → m.disk.lookup loc = some c → c = content

/-- The file that is moved away is the profile's own, and where the profile is saved there is no
other profile file, or one that holds the same already. -/
def RenameSpares (M : Mkdirs) (F : Folders) (m : Storage) (l : Kept) (newName : JString) : Prop :=
  (∀ old new, l.profile.getFile F = some old → old ∈ m.disk →
    F.openFile newName = some new → new ≠ old → F.profileFile old = true →
    l.origin = some old) ∧
  ∀ new c, (M.make F m.disk newName).openFile newName = some new → F.profileFile new = true →
    l.origin ≠ some new → m.disk.lookup new = some c →
    c = .json ((l.profile.setName newName).document none)

/-- The file that is deleted is the profile's own. -/
def DeleteSpares (F : Folders) (m : Storage) (l : Kept) : Prop :=
  ∀ old, l.profile.getFile F = some old → F.profileFile old = true → old ∈ m.disk →
    l.origin = some old

end Storage

/-- The operations that leave the files of other profiles alone. -/
def StorageOp.Spares (M : Mkdirs) (F : Folders) (m : Storage) : StorageOp → Prop
  | scanProfiles => True
  | createProfile name =>
    ∀ loc c, (M.make F m.disk name).openFile name = some loc → F.profileFile loc = true →
      m.disk.lookup loc = some c → c = .json (Profile.document none { name := name })
  | duplicateProfile i newName =>
    ∀ l, m.profiles[i]? = some l → m.DuplicateSpares F l newName
  | renameProfile i newName => ∀ l, m.profiles[i]? = some l → m.RenameSpares M F l newName
  | deleteProfile i => ∀ l, m.profiles[i]? = some l → m.DeleteSpares F l
  | importProfile _ => True

namespace Storage

variable {C : Coercions} {M : Mkdirs} {m : Storage} {i : ℕ} {l : Kept}

theorem frame_createProfile_iff (name : JString) :
    Frame F none m.disk (m.createProfile M F name).disk ↔
      (StorageOp.createProfile name).Spares M F m := by
  rw [createProfile, frame_save_iff]
  constructor
  · intro h loc c hloc hfile hc
    exact h loc c hloc hfile nofun hc
  · intro h loc c hloc hfile _ hc
    exact h loc c hloc hfile hc

theorem frame_duplicateProfile_iff (hi : m.profiles[i]? = some l) (newName : JString) :
    Frame F none m.disk (m.duplicateProfile C F i newName).disk ↔
      m.DuplicateSpares F l newName := by
  simp only [duplicateProfile, hi, DuplicateSpares]
  cases F.copyFile l.profile.name newName m.disk with
  | none => exact iff_of_true (frame_refl _ _ _) nofun
  | some w =>
    have hinsert : Frame F none m.disk (m.disk.insert w.1 w.2) ↔
        ∀ loc content c, some w = some (loc, content) → F.profileFile loc = true →
          m.disk.lookup loc = some c → c = content := by
      rw [frame_insert_iff]
      constructor
      · rintro h loc content c ⟨⟩ hfile hc
        exact h c hfile nofun hc
      · intro h c hfile _ hc
        exact h w.1 w.2 c rfl hfile hc
    dsimp only
    cases F.load C (m.disk.insert w.1 w.2) newName with
    | none => exact hinsert
    | some p => exact hinsert

theorem frame_deleteProfile_iff (hi : m.profiles[i]? = some l) :
    Frame F l.origin m.disk (m.deleteProfile F i).disk ↔ m.DeleteSpares F l := by
  simp only [deleteProfile, hi, DeleteSpares]
  cases l.profile.getFile F with
  | none => exact iff_of_true (frame_refl _ _ _) nofun
  | some old =>
    dsimp only
    rw [frame_erase_iff]
    constructor
    · rintro h old' ⟨⟩
      exact h
    · exact fun h => h old rfl

/-- What is imported was read from the document, and has a name under which there is no file. -/
theorem imported_spec {doc : Option Json} {p : Profile} (h : m.imported C F doc = some p) :
    ∃ j q, doc = some j ∧ Profile.fromJSON C p.name j = some q ∧ p = q.setName p.name ∧
      F.fileExists m.disk p.name = false := by
  unfold imported at h
  obtain ⟨j, hj, h⟩ := Option.bind_eq_some_iff.1 h
  obtain ⟨json, -, h⟩ := Option.bind_eq_some_iff.1 h
  obtain ⟨jsonName, -, h⟩ := Option.bind_eq_some_iff.1 h
  split_ifs at h with hempty
  obtain ⟨finalName, hfree, h⟩ := Option.bind_eq_some_iff.1 h
  obtain ⟨q, hq, h⟩ := Option.bind_eq_some_iff.1 h
  split_ifs at h with hvalid
  obtain rfl := Option.some.inj h
  exact ⟨j, q, hj, hq, rfl, Folders.not_fileExists_freeName hfree⟩

theorem imported_notMem {doc : Option Json} {p : Profile} {loc : Loc}
    (h : m.imported C F doc = some p) (hloc : p.getFile F = some loc) : loc ∉ m.disk := by
  obtain ⟨-, -, -, -, -, hfree⟩ := imported_spec h
  exact Folders.notMem_of_not_fileExists hfree hloc

theorem frame_importProfile (doc : Option Json) :
    Frame F none m.disk (m.importProfile C F doc).2.disk := by
  unfold importProfile
  cases hp : m.imported C F doc with
  | none => exact frame_refl _ _ _
  | some p =>
    dsimp only
    cases hloc : p.getFile F with
    | none => exact frame_refl _ _ _
    | some loc =>
      dsimp only
      rw [frame_insert_iff]
      intro c _ _ hc
      exact absurd (AList.lookup_isSome.1 (hc ▸ rfl)) (imported_notMem hp hloc)

/-- What `renameProfile` leaves in a place. -/
theorem lookup_renameTo {old new : Loc} {o n : JString} (hold : F.openFile o = some old)
    (hnew : F.openFile n = some new) (hmem : old ∈ disk) (hne : new ≠ old) :
    (F.renameTo o n disk).lookup old = none := by
  obtain ⟨c, hc⟩ := Option.isSome_iff_exists.1 (AList.lookup_isSome.2 hmem)
  simp only [Folders.renameTo, hold, hnew, hc]
  rw [AList.lookup_insert_ne hne.symm, AList.lookup_erase]

theorem lookup_renameTo_other {o n : JString} {loc : Loc} (hnew : F.openFile n ≠ some loc)
    (hold : ∀ old new, F.openFile o = some old → old ∈ disk → F.openFile n = some new →
      new ≠ old → old ≠ loc) : (F.renameTo o n disk).lookup loc = disk.lookup loc := by
  unfold Folders.renameTo
  cases ho : F.openFile o with
  | none => rfl
  | some old =>
    cases hn : F.openFile n with
    | none => rfl
    | some new =>
      dsimp only
      have hlocnew : loc ≠ new := fun heq => hnew (hn.trans (congrArg some heq.symm))
      cases hc : disk.lookup old with
      | none => rfl
      | some c =>
        dsimp only
        rw [AList.lookup_insert_ne hlocnew]
        by_cases heq : new = old
        · rw [AList.lookup_erase_ne (heq ▸ hlocnew)]
        · have hmem : old ∈ disk := AList.lookup_isSome.1 (hc ▸ rfl)
          exact AList.lookup_erase_ne (hold old new ho hmem hn heq).symm

theorem frame_renameProfile_iff (hi : m.profiles[i]? = some l) (newName : JString) :
    Frame F l.origin m.disk (m.renameProfile M F i newName).disk ↔
      m.RenameSpares M F l newName := by
  simp only [renameProfile, hi, RenameSpares, Folders.save]
  have hname (F' : Folders) : (l.profile.setName newName).getFile F' = F'.openFile newName := rfl
  rw [hname]
  have hopens {new : Loc} (h : F.openFile newName = some new) :
      (M.make F m.disk newName).openFile newName = some new :=
    M.opens F m.disk newName newName new h (.inl rfl)
  constructor
  · intro h
    refine ⟨fun old new hold hmem hnew hne hfile => ?_, fun new c hnew hfile hown hc => ?_⟩
    · -- a file of another profile that was moved away is not there any more
      by_contra hown
      obtain ⟨c, hc⟩ := Option.isSome_iff_exists.1 (AList.lookup_isSome.2 hmem)
      have hkept := h old c hfile hown hc
      rw [hopens hnew] at hkept
      dsimp only at hkept
      rw [AList.lookup_insert_ne hne.symm, lookup_renameTo hold hnew hmem hne] at hkept
      cases hkept
    · have hkept := h new c hfile hown hc
      rw [hnew] at hkept
      dsimp only at hkept
      rw [AList.lookup_insert] at hkept
      exact (Option.some.inj hkept).symm
  · rintro ⟨haway, hsaved⟩ loc c hfile hown hc
    have hold : ∀ old new, F.openFile l.profile.name = some old → old ∈ m.disk →
        F.openFile newName = some new → new ≠ old → old ≠ loc := by
      rintro old new hold hmem hnew hne rfl
      exact hown (haway old new hold hmem hnew hne hfile)
    cases hafter : (M.make F m.disk newName).openFile newName with
    | none =>
      dsimp only
      rw [lookup_renameTo_other ?_ hold, hc]
      intro hbefore
      rw [hopens hbefore] at hafter
      cases hafter
    | some new =>
      dsimp only
      by_cases heq : loc = new
      · subst heq
        rw [AList.lookup_insert, hsaved loc c hafter hfile hown hc]
      · rw [AList.lookup_insert_ne heq, lookup_renameTo_other ?_ hold, hc]
        intro hbefore
        rw [hopens hbefore] at hafter
        exact heq (Option.some.inj hafter)

end Storage

/-- **The frame of the profile operations**: an operation leaves the files of all other profiles
as they are exactly when what it writes or removes is not one of them. -/
theorem frame_step_iff (C : Coercions) (M : Mkdirs) (F : Folders) (m : Storage) (op : StorageOp) :
    Frame F (op.own m) m.disk (op.step C M F m).disk ↔ op.Spares M F m := by
  cases op with
  | scanProfiles => exact iff_of_true (frame_refl _ _ _) trivial
  | createProfile name => exact Storage.frame_createProfile_iff name
  | importProfile doc => exact iff_of_true (Storage.frame_importProfile doc) trivial
  | duplicateProfile i newName =>
    simp only [StorageOp.Spares, StorageOp.own, StorageOp.step]
    cases hi : m.profiles[i]? with
    | none =>
      simp only [Storage.duplicateProfile, hi]
      exact iff_of_true (frame_refl _ _ _) nofun
    | some l =>
      rw [Storage.frame_duplicateProfile_iff hi]
      simp
  | renameProfile i newName =>
    simp only [StorageOp.Spares, StorageOp.own, StorageOp.step]
    cases hi : m.profiles[i]? with
    | none =>
      simp only [Storage.renameProfile, hi]
      exact iff_of_true (frame_refl _ _ _) nofun
    | some l =>
      rw [Option.bind_some, Storage.frame_renameProfile_iff hi]
      simp
  | deleteProfile i =>
    simp only [StorageOp.Spares, StorageOp.own, StorageOp.step]
    cases hi : m.profiles[i]? with
    | none =>
      simp only [Storage.deleteProfile, hi]
      exact iff_of_true (frame_refl _ _ _) nofun
    | some l =>
      rw [Option.bind_some, Storage.frame_deleteProfile_iff hi]
      simp

/-- The directory `virtualkeys` with no directories in it, on a system that takes any name. -/
def plainFolders : Folders where
  home := ["files", "virtualkeys"]
  dirs := [["files"], ["files", "virtualkeys"]]
  accepts _ := true

/-- No directory is made. -/
def Mkdirs.none : Mkdirs := ⟨fun F _ _ => F, fun _ _ _ => rfl, fun _ _ _ _ _ h _ => h⟩

/-- The file of an empty profile `a`. -/
def emptyProfile : Disk :=
  AList.insert ⟨["files", "virtualkeys"], "a.icp"⟩
    (.json (.obj [("name", .str "a"), ("elements", .arr [])])) ∅

/-- A directory with the file of one profile `a`, which has a button. -/
def oneProfile : Storage where
  disk := AList.insert ⟨["files", "virtualkeys"], "a.icp"⟩ (.json (.obj [("name", .str "a"),
    ("elements", .arr [.obj [("type", .str "BUTTON")]])])) ∅

/-- A new profile with the name of an existing one overwrites it. -/
theorem createProfile_overwrites :
    ¬ Frame plainFolders none oneProfile.disk
      ((StorageOp.createProfile "a").step .strict .none plainFolders oneProfile).disk := by
  intro h
  have hopen : plainFolders.openFile "a" = some ⟨["files", "virtualkeys"], "a.icp"⟩ := by
    decide +kernel
  have hfile : plainFolders.profileFile ⟨["files", "virtualkeys"], "a.icp"⟩ = true := by
    decide +kernel
  have hspares := (Storage.frame_createProfile_iff (M := .none) "a").1 h
  have hsame := hspares _ _ hopen hfile (AList.lookup_insert _)
  simp [Profile.document, Profile.toJSONObject, Json.written, Json.writtenFields,
    Json.writtenValues] at hsame

end TermuxX11.VirtualKeys
