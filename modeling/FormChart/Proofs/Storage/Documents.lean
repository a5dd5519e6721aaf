import Mathlib.Data.List.Nodup
import FormChart.Proofs.Storage.HomeFolder

/-!
# Documents in a folder

A folder stores texts as a memory does, with one document for each key.

* A folder that begins empty **mirrors a memory** through any calls (`Folder.Mirrors`), but a write
  under the key `.` fails (`Dotless`, `Folder.lone_dot_is_not_kept`).
* In a folder in which files and folders were placed between the calls (`Folder.place`), **a call
  that fails leaves every document as it was**.  The proof needs that every entry below a folder has
  that folder on the disk (`Disk.Grounded`): otherwise making the home folder would make entries
  readable that were not so before.

`Folder.documents_are_kept` states both.
-/

namespace FormChart

/-! ## Calls on a storage -/

/-- A call on a storage. -/
inductive Access where
  | read (key : String)
  | write (key text : String)
  | remove (key : String)
  deriving DecidableEq

namespace Access

/-- The key of a call. -/
def key : Access → String
  | .read key | .write key _ | .remove key => key

/-- Makes a call: the answer, and the storage after it. -/
def on {S : Type} [Storage S] (s : S) : Access → Except StorageError (Option String) × S
  | .read key => Storage.read s key
  | .write key text =>
    let (answer, s) := Storage.write s key text
    (answer.map fun _ => none, s)
  | .remove key =>
    let (answer, s) := Storage.remove s key
    (answer.map fun _ => none, s)

end Access

namespace Storage

variable {S T : Type} [Storage S] [Storage T]

/-- Makes some calls one after the other: the answers, and the storage after them. -/
def run (s : S) : List Access → List (Except StorageError (Option String)) × S
  | [] => ([], s)
  | a :: rest =>
    let (answer, s) := a.on s
    let (answers, s) := run s rest
    (answer :: answers, s)

/-- Storages that answer every single call alike and stay related answer all calls alike. -/
lemma run_alike {R : S → T → Prop} {P : Access → Prop}
    (hstep : ∀ s t a, P a → R s t → (a.on s).1 = (a.on t).1 ∧ R (a.on s).2 (a.on t).2)
    {s : S} {t : T} (h : R s t) {accesses : List Access} (haccesses : ∀ a ∈ accesses, P a) :
    (run s accesses).1 = (run t accesses).1 ∧ R (run s accesses).2 (run t accesses).2 := by
  induction accesses generalizing s t with
  | nil => exact ⟨rfl, h⟩
  | cons a rest ih =>
      obtain ⟨hanswer, hafter⟩ := hstep s t a (haccesses a List.mem_cons_self) h
      obtain ⟨hanswers, hafter⟩ := ih hafter fun b hb => haccesses b (List.mem_cons_of_mem _ hb)
      exact ⟨congrArg₂ List.cons hanswer hanswers, hafter⟩

end Storage

/-- A memory in which a write under the key `.` fails. -/
structure Dotless where
  slots : Dict String := {}
  deriving DecidableEq, Inhabited

instance : Storage Dotless where
  read m key := (.ok (m.slots.get? key), m)
  write m key text :=
    if key = "." then (.error (.io key), m) else (.ok (), ⟨m.slots.insert key text⟩)
  remove m key := (.ok (), ⟨m.slots.erase key⟩)

/-- Without a write under the key `.` it answers as a memory. -/
lemma Dotless.run_eq {accesses : List Access} (h : ∀ text, .write "." text ∉ accesses) :
    Storage.run ({} : Memory) accesses =
      ((Storage.run ({} : Dotless) accesses).1,
        ⟨(Storage.run ({} : Dotless) accesses).2.slots⟩) := by
  have hstep : ∀ (m : Dotless) (m' : Memory) (a : Access), (∀ text, a ≠ .write "." text) →
      m' = ⟨m.slots⟩ → (a.on m).1 = (a.on m').1 ∧ (a.on m').2 = ⟨(a.on m).2.slots⟩ := by
    rintro ⟨slots⟩ _ a ha rfl
    cases a with
    | read key => exact ⟨rfl, rfl⟩
    | remove key => exact ⟨rfl, rfl⟩
    | write key text =>
        have hdot : key ≠ "." := fun heq => ha text (heq ▸ rfl)
        simp [Access.on, Storage.write, hdot]
  obtain ⟨hanswers, hslots⟩ := Storage.run_alike hstep (s := {}) (t := {}) rfl fun a ha text heq =>
    h text (heq ▸ ha)
  exact Prod.ext hanswers.symm hslots

/-! ## Things stand in folders -/

namespace Disk

/-- Whether the home is a folder as soon as there is an entry below it, at any depth. -/
def Grounded (d : Disk) (home : String) : Prop :=
  ∀ name, d.get? [home, name] ≠ none → d.get? [home] = some .folder

/-- Whether the first folder of a path is on the disk, and no name of the path has a slash. -/
structure Anchored (d : Disk) (path : DiskPath) : Prop where
  names : ∀ name ∈ path, '/' ∉ name.toList
  first : ∀ name rest, path = name :: rest → d.get? [name] = some .folder

variable {d : Disk} {home : String} {path : DiskPath}

/-- Putting an entry at the end of an anchored path keeps the disk grounded, unless a file replaces
a folder. -/
lemma Grounded.put (h : d.Grounded home) (hhome : '/' ∉ home.toList) (hpath : d.Anchored path)
    {name : String} (hname : '/' ∉ name.toList) {e : DiskEntry}
    (he : d.get? (path ++ [name]) = some .folder → e = .folder) :
    (d.put (path ++ [name]) e).Grounded home := by
  have hback : pathNames (pathText (path ++ [name])) = path ++ [name] := by
    refine pathNames_pathText (by simp) fun other hother => ?_
    rcases List.mem_append.1 hother with hother | hother
    · exact hpath.names other hother
    · exact List.mem_singleton.1 hother ▸ hname
  intro below hbelow
  rw [get?_put_home]
  by_cases heq : pathText [home, below] = pathText (path ++ [name])
  · -- the path begins with the home folder, so it is there
    rw [← heq, pathNames_pair hhome] at hback
    rw [← heq, if_neg (pathText_ne home below)]
    cases path with
    | nil => exact absurd (List.cons.inj hback).2 (pathNames_ne_nil below)
    | cons first rest => exact (List.cons.inj hback).1 ▸ hpath.first first rest rfl
  · have hold : (d.put (path ++ [name]) e).get? [home, below] = d.get? [home, below] := by
      have hput := Dict.get?_insert d.entries (pathText (path ++ [name])) e (pathText [home, below])
      rwa [if_neg heq] at hput
    have hfolder := h below (hold ▸ hbelow)
    split
    next hsame =>
        rw [← hsame, pathNames_pathText (by simp) (by simpa using hhome)] at hback
        rw [he (hback ▸ hfolder)]
    next => exact hfolder

namespace Anchored

lemma nil (d : Disk) : d.Anchored [] := ⟨by simp, nofun⟩

lemma dropLast (h : d.Anchored path) : d.Anchored path.dropLast := by
  refine ⟨fun name hname => h.names name (List.dropLast_subset path hname), fun name rest heq => ?_⟩
  cases path with
  | nil => cases heq
  | cons first more =>
      refine h.first name more ?_
      cases more with
      | nil => cases heq
      | cons second more => rw [(List.cons.inj heq).1]

lemma push (h : d.Anchored path) {name : String} (hname : '/' ∉ name.toList)
    (hfolder : d.get? (path ++ [name]) = some .folder) : d.Anchored (path ++ [name]) := by
  constructor
  case names =>
    intro other hother
    rcases List.mem_append.1 hother with hother | hother
    · exact h.names other hother
    · exact List.mem_singleton.1 hother ▸ hname
  case first =>
    intro first rest heq
    cases path with
    | nil => exact (List.cons.inj heq).1 ▸ hfolder
    | cons other more => exact (List.cons.inj heq).1 ▸ h.first other more rfl

lemma put (h : d.Anchored path) (other : DiskPath) : (d.put other .folder).Anchored path := by
  refine ⟨h.names, fun name rest heq => ?_⟩
  rw [get?_put_home, h.first name rest heq, ite_self]

end Anchored

/-- **Making the folders of a path** keeps the disk grounded and replaces no folder. -/
lemma Grounded.makeFolders (hhome : '/' ∉ home.toList) {names : List String}
    (hnames : ∀ name ∈ names, '/' ∉ name.toList) (h : d.Grounded home) (hpath : d.Anchored path) :
    (d.makeFolders path names).1.Grounded home ∧
      ∀ last, (d.makeFolders path names).2 = some last →
        (d.makeFolders path names).1.Anchored last := by
  induction names generalizing d path with
  | nil => exact ⟨h, fun last hlast => Option.some.inj hlast ▸ hpath⟩
  | cons name rest ih =>
      have hname := hnames name List.mem_cons_self
      have ih := fun {d path} => @ih d path fun other hother =>
        hnames other (List.mem_cons_of_mem _ hother)
      rw [Disk.makeFolders]
      split
      next => exact ih h hpath
      next =>
          split
          next => exact ih h hpath.dropLast
          next =>
              split
              next => exact ⟨h, nofun⟩
              next =>
                  split
                  next hfolder => exact ih h (hpath.push hname hfolder)
                  next => exact ⟨h, nofun⟩
                  next =>
                      refine ih (h.put hhome hpath hname fun _ => rfl)
                        ((hpath.put _).push hname ?_)
                      have hput := Dict.get?_insert d.entries (pathText (path ++ [name]))
                        DiskEntry.folder (pathText (path ++ [name]))
                      rw [if_pos rfl] at hput
                      cases path <;> exact hput

end Disk

namespace Folder

variable {f : Folder}

lemma not_mem_splitKey (hhome : '/' ∉ f.home.toList) (key : String) :
    (∀ name ∈ (f.splitKey key).1, '/' ∉ name.toList) ∧ '/' ∉ (f.splitKey key).2.toList := by
  have hfolders : ∀ name ∈ (Disk.pathNames key).dropLast, '/' ∉ name.toList := fun name hname =>
    Disk.not_mem_of_mem_pathNames (List.dropLast_subset _ hname)
  unfold splitKey
  refine ⟨fun name hname => ?_, ?_⟩
  · dsimp only at hname
    split at hname
    next => exact hfolders name hname
    next =>
        rcases List.mem_cons.1 hname with rfl | hname
        · exact hhome
        · exact hfolders name hname
  · cases hlast : (Disk.pathNames key).getLast? with
    | none => simp [List.getLastD_eq_getLast?, hlast]
    | some part =>
        simpa [List.getLastD_eq_getLast?, hlast] using
          Disk.not_mem_of_mem_pathNames (List.mem_of_getLast? hlast)

/-- **Placing an entry** keeps the disk grounded. -/
lemma grounded_place (hhome : '/' ∉ f.home.toList) (h : f.disk.Grounded f.home) (name : String)
    (e : DiskEntry) :
    (f.place name e).home = f.home ∧ (f.place name e).disk.Grounded (f.place name e).home := by
  obtain ⟨hfolders, hpart⟩ := not_mem_splitKey hhome name
  rw [place]
  generalize f.splitKey name = split at hfolders hpart ⊢
  obtain ⟨folders, part⟩ := split
  dsimp only at hfolders hpart ⊢
  split
  next => exact ⟨rfl, h⟩
  next =>
      cases e with
      | folder =>
          refine ⟨rfl, (h.makeFolders hhome (fun other hother => ?_) (.nil _)).1⟩
          rcases List.mem_append.1 hother with hother | hother
          · exact hfolders other hother
          · exact List.mem_singleton.1 hother ▸ hpart
      | file content =>
          obtain ⟨hmade, hanchored⟩ := h.makeFolders hhome hfolders (.nil _)
          refine ⟨rfl, ?_⟩
          dsimp only
          cases hlast : (f.disk.makeFolders [] folders).2 with
          | none => exact hmade
          | some path =>
              rw [Option.bind_some]
              split
              next => exact hmade
              next =>
                  rw [writeFile]
                  split
                  next => exact hmade
                  next hfree =>
                      exact hmade.put hhome (hanchored path hlast) hpart fun hfolder =>
                        absurd hfolder hfree

end Folder

/-! ## A folder that begins empty -/

namespace Folder

variable {f : Folder} {key : String}

/-- Whether the home folder has no entries.  It need not have been made yet. -/
structure IsFresh (f : Folder) : Prop where
  home : f.disk.get? [f.home] = none ∨ f.disk.get? [f.home] = some .folder
  empty : ∀ name, f.at? name = none

lemma Reaches.grounded {f' : Folder} (h : f.Reaches ∅ f') (hgrounded : f.disk.Grounded f.home) :
    f'.disk.Grounded f'.home := by
  intro name hname
  rw [← at?, h.inside name (Set.notMem_empty name)] at hname
  have hhere := hgrounded name hname
  rw [h.home]
  rcases h.made with hsame | ⟨-, hfolder⟩
  · exact hsame.trans hhere
  · exact hfolder

/-- A folder that was fresh, and the texts that it keeps now: there is one document for each of
them, and nothing else at any depth. -/
structure Mirrors (fresh f : Folder) (slots : Dict String) : Prop where
  reaches : fresh.Reaches Set.univ f
  home : f.disk.get? [f.home] = none ∨ f.disk.get? [f.home] = some .folder
  grounded : f.disk.Grounded f.home
  plain : ∀ key, slots.get? key ≠ none → IsPlain key
  documents : ∀ key, f.at? (documentName key) =
    (slots.get? key).map fun text => .file text.toUTF8
  others : ∀ name, (∀ key, name ≠ documentName key) → f.at? name = none

namespace Mirrors

variable {fresh f' : Folder} {slots : Dict String} {text : String}

lemma init (h : fresh.IsFresh) : fresh.Mirrors fresh {} where
  reaches := .refl _ _
  home := h.home
  grounded := fun name hname => absurd (h.empty name) hname
  plain := fun _ hkey => absurd rfl hkey
  documents := fun key => h.empty (documentName key)
  others := fun name _ => h.empty name

variable (h : fresh.Mirrors f slots)

include h

/-- No folder has the name of a document or of a temporary file. -/
lemma not_folder (name : String) : f.at? name ≠ some .folder := by
  intro hfolder
  by_cases hname : ∃ key, name = documentName key
  · obtain ⟨key, rfl⟩ := hname
    rw [h.documents] at hfolder
    cases hslot : slots.get? key <;> simp [hslot] at hfolder
  · rw [h.others name fun key hkey => hname ⟨key, hkey⟩] at hfolder
    cases hfolder

lemma not_file (content : ByteArray) : f.disk.get? [f.home] ≠ some (.file content) := by
  rcases h.home with hhere | hhere <;> simp [hhere]

lemma read (hhome : IsProper f.home) (hkey : IsPlain key) : f.read key = .ok (slots.get? key) := by
  have hentry : readEntry key (f.at? (documentName key)) = .ok (slots.get? key) := by
    rw [h.documents]
    cases slots.get? key with
    | none => rfl
    | some text => exact readEntry_file key text
  rw [read_eq hhome hkey]
  rcases h.home with hhere | hhere
  · rw [hhere]
    cases hdocument : f.at? (documentName key) with
    | none => rwa [hdocument] at hentry
    | some e =>
        have hthere : f.at? (documentName key) ≠ none := hdocument ▸ Option.some_ne_none e
        have hfolder := h.grounded (documentName key) hthere
        rw [hhere] at hfolder
        cases hfolder
  · rwa [hhere]

/-- A call that at most makes the home folder keeps the texts. -/
lemma of_reaches (hreaches : f.Reaches ∅ f') : fresh.Mirrors f' slots := by
  have hinside : ∀ name, f'.at? name = f.at? name := fun name =>
    hreaches.inside name (Set.notMem_empty name)
  refine ⟨h.reaches.trans (hreaches.mono (Set.empty_subset _)), ?_, hreaches.grounded h.grounded,
    h.plain, fun key => (hinside _).trans (h.documents key),
    fun name hname => (hinside name).trans (h.others name hname)⟩
  rw [hreaches.home]
  rcases hreaches.made with hsame | ⟨-, hfolder⟩
  · exact hsame ▸ h.home
  · exact .inr hfolder

lemma insert (hkey : IsPlain key) (hreaches : f.Reaches {temporaryOf key, documentName key} f')
    (hhome : f'.disk.get? [f'.home] = some .folder) (htemporary : f'.at? (temporaryOf key) = none)
    (hdocument : f'.at? (documentName key) = some (.file text.toUTF8)) :
    fresh.Mirrors f' (slots.insert key text) := by
  refine ⟨h.reaches.trans (hreaches.mono (Set.subset_univ _)), .inr hhome,
    fun _ _ => hhome, fun other hother => ?_, fun other => ?_, fun name hname => ?_⟩
  · rw [Dict.get?_insert] at hother
    split at hother
    next heq => exact heq ▸ hkey
    next => exact h.plain other hother
  · rw [Dict.get?_insert]
    split
    next heq => rw [heq, hdocument]; rfl
    next hne =>
        rw [← h.documents, hreaches.inside]
        simp [documentName_ne_temporaryOf, documentName_inj, hne]
  · by_cases hname' : name = temporaryOf key
    · rw [hname', htemporary]
    · rw [hreaches.inside name (by simp [hname', hname key]), h.others name hname]

lemma erase (hreaches : f.Reaches {documentName key} f')
    (hhome : f'.disk.get? [f'.home] = some .folder)
    (hdocument : f'.at? (documentName key) = none) : fresh.Mirrors f' (slots.erase key) := by
  refine ⟨h.reaches.trans (hreaches.mono (Set.subset_univ _)), .inr hhome,
    fun _ _ => hhome, fun other hother => ?_, fun other => ?_, fun name hname => ?_⟩
  · rw [Dict.get?_erase] at hother
    split at hother
    next => exact absurd rfl hother
    next => exact h.plain other hother
  · rw [Dict.get?_erase]
    split
    next heq => rw [heq, hdocument]; rfl
    next hne =>
        rw [← h.documents, hreaches.inside]
        simp [documentName_inj, hne]
  · rw [hreaches.inside name (by simp [hname key]), h.others name hname]

/-- **One call** is answered as by a memory. -/
lemma step (hhome : IsProper fresh.home) {a : Access} (ha : IsPlain a.key) :
    (a.on f).1 = (a.on (⟨slots⟩ : Dotless)).1 ∧
      fresh.Mirrors (a.on f).2 (a.on (⟨slots⟩ : Dotless)).2.slots := by
  have hproper : IsProper f.home := h.reaches.home ▸ hhome
  cases a with
  | read key => exact ⟨h.read hproper ha, h⟩
  | write key text =>
      have hkey : IsPlain key := ha
      have hwritten := write_written hproper hkey text
      simp only [Access.on, Storage.write]
      generalize f.write key text = result at hwritten
      cases hwritten with
      | refused hreaches hwhy =>
          have hdot : key = "." := by
            rcases hwhy with hdot | ⟨content, hfile⟩ | hfolder
            · exact hdot
            · exact absurd hfile (h.not_file content)
            · exact absurd hfolder (h.not_folder _)
          rw [if_pos hdot]
          exact ⟨rfl, h.of_reaches hreaches⟩
      | unfinished _ _ hfolder => exact absurd hfolder (h.not_folder _)
      | done hdot hreaches hhere htemporary hdocument =>
          rw [if_neg hdot]
          exact ⟨rfl, h.insert hkey hreaches hhere htemporary hdocument⟩
  | remove key =>
      have hkey : IsPlain key := ha
      have hremoved := remove_removed hproper hkey
      simp only [Access.on, Storage.remove]
      generalize f.remove key = result at hremoved
      cases hremoved with
      | refused hwhy =>
          rcases hwhy with ⟨content, hfile⟩ | hfolder
          · exact absurd hfile (h.not_file content)
          · exact absurd hfolder (h.not_folder _)
      | missing hnone =>
          have habsent : slots.get? key = none := by
            have hread := h.read hproper hkey
            rw [read_eq hproper hkey, hnone] at hread
            exact (Except.ok.inj hread).symm
          rw [Dict.erase_of_get?_eq_none habsent]
          exact ⟨rfl, h⟩
      | done hreaches hhere hdocument => exact ⟨rfl, h.erase hreaches hhere hdocument⟩

end Mirrors

/-! ## What is listed -/

/-- The name that an entry of the disk is listed under. -/
lemma listed_iff {home k name : String} :
    (let names := Disk.pathNames k
      if names.length = [home].length + 1 ∧ names.take [home].length = [home] then names.getLast?
      else none) = some name ↔ Disk.pathNames k = [home, name] := by
  dsimp only
  rcases Disk.pathNames k with _ | ⟨first, _ | ⟨second, _ | ⟨third, rest⟩⟩⟩ <;> simp [and_comm]

/-- What stands right in the home folder is listed under its name. -/
lemma mem_names (hhome : '/' ∉ f.home.toList) {name : String} :
    name ∈ f.names ↔ '/' ∉ name.toList ∧ f.at? name ≠ none := by
  rw [names, Disk.names, List.mem_filterMap]
  simp only [listed_iff, Dict.mem_keys]
  constructor
  · rintro ⟨k, hk, hpair⟩
    have hname : name ∈ Disk.pathNames k := by simp [hpair]
    refine ⟨Disk.not_mem_of_mem_pathNames hname, ?_⟩
    rw [← Disk.pathText_pathNames k, hpair] at hk
    exact hk
  · rintro ⟨hname, hthere⟩
    exact ⟨_, hthere, by rw [Disk.pathNames_pair hhome, Disk.pathNames_of_not_mem hname]⟩

lemma nodup_names (f : Folder) : f.names.Nodup := by
  refine f.disk.entries.nodup_keys.filterMap fun k k' name hk hk' => ?_
  rw [← Disk.pathText_pathNames k, listed_iff.1 hk, ← listed_iff.1 hk', Disk.pathText_pathNames]

/-- **There is one file for each key.** -/
lemma Mirrors.names_perm {fresh : Folder} {slots : Dict String} (h : fresh.Mirrors f slots)
    (hhome : IsProper fresh.home) : f.names.Perm (slots.keys.map documentName) := by
  refine (List.perm_ext_iff_of_nodup f.nodup_names ?_).2 fun name => ?_
  · exact slots.nodup_keys.map fun _ _ => documentName_inj.1
  · rw [mem_names (h.reaches.home ▸ hhome.slash), List.mem_map]
    constructor
    · rintro ⟨-, hthere⟩
      obtain ⟨key, rfl⟩ : ∃ key, name = documentName key := by
        by_contra hnot
        exact hthere (h.others name fun key hkey => hnot ⟨key, hkey⟩)
      refine ⟨key, Dict.mem_keys.2 fun hnone => hthere ?_, rfl⟩
      rw [h.documents, hnone, Option.map_none]
    · rintro ⟨key, hkey, rfl⟩
      have hstored := Dict.mem_keys.1 hkey
      refine ⟨?_, ?_⟩
      · simpa [documentName] using (h.plain key hstored).slash
      · rw [h.documents]
        simpa using hstored

/-! ## A folder with other entries -/

/-- A call on the storage, or a file or folder that something else places on the disk. -/
inductive Turn where
  | call (a : Access)
  | place (name : String) (e : DiskEntry)

/-- Whether the key of a call is plain. -/
def Turn.IsPlain : Turn → Prop
  | .call a => Folder.IsPlain a.key
  | .place .. => True

/-- The folder after a turn. -/
def after (f : Folder) : Turn → Folder
  | .call a => (a.on f).2
  | .place name e => f.place name e

/-- **One turn** keeps the disk grounded. -/
lemma grounded_after (hhome : IsProper f.home) (h : f.disk.Grounded f.home) {t : Turn}
    (ht : t.IsPlain) : (f.after t).home = f.home ∧ (f.after t).disk.Grounded (f.after t).home := by
  cases t with
  | place name e => exact grounded_place hhome.slash h name e
  | call a =>
      cases a with
      | read key => exact ⟨rfl, h⟩
      | write key text =>
          have hkey : IsPlain key := ht
          have hwritten := write_written hhome hkey text
          simp only [after, Access.on, Storage.write]
          generalize f.write key text = result at hwritten
          cases hwritten with
          | refused hreaches _ => exact ⟨hreaches.home, hreaches.grounded h⟩
          | unfinished hreaches hhere _ => exact ⟨hreaches.home, fun _ _ => hhere⟩
          | done _ hreaches hhere _ _ => exact ⟨hreaches.home, fun _ _ => hhere⟩
      | remove key =>
          have hkey : IsPlain key := ht
          have hremoved := remove_removed hhome hkey
          simp only [after, Access.on, Storage.remove]
          generalize f.remove key = result at hremoved
          cases hremoved with
          | refused _ => exact ⟨rfl, h⟩
          | missing _ => exact ⟨rfl, h⟩
          | done hreaches hhere _ => exact ⟨hreaches.home, fun _ _ => hhere⟩

lemma grounded_foldl_after (hhome : IsProper f.home) (h : f.disk.Grounded f.home)
    {turns : List Turn} (hturns : ∀ t ∈ turns, t.IsPlain) :
    (turns.foldl after f).home = f.home ∧
      (turns.foldl after f).disk.Grounded (turns.foldl after f).home := by
  induction turns generalizing f with
  | nil => exact ⟨rfl, h⟩
  | cons t rest ih =>
      obtain ⟨hsame, hgrounded⟩ := grounded_after hhome h (hturns t List.mem_cons_self)
      obtain ⟨hrest, hlast⟩ := ih (hsame ▸ hhome) hgrounded fun u hu =>
        hturns u (List.mem_cons_of_mem _ hu)
      exact ⟨hrest.trans hsame, hlast⟩

/-- A document is read as before if its name is not among those that were reached. -/
lemma read_of_reaches {f' : Folder} {names : Set String} {key : String} (hhome : IsProper f.home)
    (hgrounded : f.disk.Grounded f.home) (hreaches : f.Reaches names f') (hkey : IsPlain key)
    (hname : documentName key ∉ names) : f'.read key = f.read key := by
  rw [read_eq (hreaches.home ▸ hhome) hkey, read_eq hhome hkey, hreaches.home,
    hreaches.inside _ hname]
  rcases hreaches.made with hsame | ⟨hnone, hfolder⟩
  · rw [hsame]
  · have habsent : f.at? (documentName key) = none := by
      by_contra hthere
      have hhere := hgrounded (documentName key) hthere
      rw [hnone] at hhere
      cases hhere
    rw [hnone, hfolder, habsent]
    rfl

/-- **A call that fails** leaves every document as it was. -/
lemma read_of_failure (hhome : IsProper f.home) (hgrounded : f.disk.Grounded f.home) {a : Access}
    (ha : IsPlain a.key) {cause : StorageError} (hfails : (a.on f).1 = .error cause) {key : String}
    (hkey : IsPlain key) : (a.on f).2.read key = f.read key := by
  cases a with
  | read _ => rfl
  | write written text =>
      have hplain : IsPlain written := ha
      have hwritten := write_written hhome hplain text
      simp only [Access.on, Storage.write] at hfails ⊢
      generalize f.write written text = result at hwritten hfails
      cases hwritten with
      | refused hreaches _ =>
          exact read_of_reaches hhome hgrounded hreaches hkey (Set.notMem_empty _)
      | unfinished hreaches _ _ =>
          exact read_of_reaches hhome hgrounded hreaches hkey
            (documentName_ne_temporaryOf key written)
      | done => cases hfails
  | remove removed =>
      have hplain : IsPlain removed := ha
      have hremoved := remove_removed hhome hplain
      simp only [Access.on, Storage.remove] at hfails ⊢
      generalize f.remove removed = result at hremoved hfails
      cases hremoved with
      | refused _ => rfl
      | missing _ => cases hfails
      | done => cases hfails

/-- **Documents are kept.**  In a folder that begins empty, and for keys without slashes,

* all calls are answered as by a memory in which writing under the key `.` fails, so as by a memory
  if nothing is written under that key;
* after them there is one file `<key>.json` for each key, with the text of the key, nothing else
  stands in the home folder at any depth, and outside of it the disk is as before;
* if files and folders are placed on the disk between the calls, every call that fails leaves what
  is read under each key as it was. -/
theorem documents_are_kept (hhome : IsProper f.home) (hfresh : f.IsFresh) :
    (∀ accesses : List Access, (∀ a ∈ accesses, IsPlain a.key) →
      ∃ (answers : List (Except StorageError (Option String))) (slots : Dict String) (f' : Folder),
        Storage.run f accesses = (answers, f') ∧
        Storage.run ({} : Dotless) accesses = (answers, ⟨slots⟩) ∧
        ((∀ text, .write "." text ∉ accesses) →
          Storage.run ({} : Memory) accesses = (answers, ⟨slots⟩)) ∧
        f'.names.Perm (slots.keys.map documentName) ∧
        (∀ key text, slots.get? key = some text →
          f'.disk.get? [f.home, documentName key] = some (.file text.toUTF8)) ∧
        (∀ name, f'.disk.get? [f.home, name] ≠ none → ∃ key ∈ slots.keys, name = documentName key) ∧
        ∀ text, text ≠ f.home → (∀ name, text ≠ f.home ++ "/" ++ name) →
          f'.disk.entries.get? text = f.disk.entries.get? text) ∧
    ∀ turns : List Turn, (∀ t ∈ turns, t.IsPlain) → ∀ a : Access, IsPlain a.key →
      ∀ cause, (a.on (turns.foldl after f)).1 = .error cause → ∀ key, IsPlain key →
        (a.on (turns.foldl after f)).2.read key = (turns.foldl after f).read key := by
  constructor
  · intro accesses haccesses
    have hstep : ∀ (g : Folder) (m : Dotless) (a : Access), IsPlain a.key → f.Mirrors g m.slots →
        (a.on g).1 = (a.on m).1 ∧ f.Mirrors (a.on g).2 (a.on m).2.slots :=
      fun _ _ _ ha hmirrors => hmirrors.step hhome ha
    obtain ⟨hanswers, hmirrors⟩ :=
      Storage.run_alike hstep (t := {}) (Mirrors.init hfresh) haccesses
    have hsame := hmirrors.reaches.home
    refine ⟨_, _, _, Prod.ext hanswers rfl, rfl, Dotless.run_eq, hmirrors.names_perm hhome,
      fun key text hstored => ?_, fun name hthere => ?_, hmirrors.reaches.outside⟩
    · have hdocument := hmirrors.documents key
      rwa [hstored, at?, hsame] at hdocument
    · rw [← hsame, ← at?] at hthere
      by_contra hnot
      refine hthere (hmirrors.others name fun key hkey => hnot ⟨key, Dict.mem_keys.2 ?_, hkey⟩)
      intro hnone
      rw [hkey, hmirrors.documents, hnone] at hthere
      exact hthere rfl
  · intro turns hturns a ha cause hfails key hkey
    have hempty : f.disk.Grounded f.home := fun name hname => absurd (hfresh.empty name) hname
    obtain ⟨hsame, hgrounded⟩ := grounded_foldl_after hhome hempty hturns
    exact read_of_failure (hsame ▸ hhome) hgrounded ha hfails hkey

/-- Two keys are written and one of them is removed: there is one document.  Where a folder has the
name of a document, that one cannot be written, but others are still read. -/
theorem documents_are_kept_twice :
    (∃ f', Storage.run ({} : Folder)
        [.write "a" "1", .write "a" "2", .write "b" "3", .remove "b", .read "a"] =
          ([.ok none, .ok none, .ok none, .ok none, .ok (some "2")], f') ∧
      f'.names = ["a.json"] ∧ f'.disk.get? ["home", "a.json"] = some (.file "2".toUTF8)) ∧
    ∃ f', ((Access.write "b" "3").on
        ([.place "b.json" .folder, .call (.write "a" "1")].foldl after {})) =
          (.error (.io "b"), f') ∧ f'.read "a" = .ok (some "1") := by
  have hhome : IsProper ({} : Folder).home := ⟨by decide, by decide, by decide⟩
  have ha : IsPlain "a" := ⟨by decide, by decide, by decide⟩
  have hb : IsPlain "b" := ⟨by decide, by decide, by decide⟩
  obtain ⟨hkept, hfailed⟩ := documents_are_kept hhome ⟨.inl (by decide), fun _ => rfl⟩
  constructor
  · obtain ⟨answers, slots, f', hrun, -, hmemory, hnames, hdocuments, -⟩ := hkept
      [.write "a" "1", .write "a" "2", .write "b" "3", .remove "b", .read "a"]
      (by simp [Access.key, ha, hb])
    have hcomputed : Storage.run ({} : Memory)
        [.write "a" "1", .write "a" "2", .write "b" "3", .remove "b", .read "a"] =
          ([.ok none, .ok none, .ok none, .ok none, .ok (some "2")],
            ⟨Dict.ofList [("a", "2")]⟩) := by decide +kernel
    have hsame := (hmemory (by simp)).symm.trans hcomputed
    simp only [Prod.mk.injEq, Memory.mk.injEq] at hsame
    obtain ⟨rfl, rfl⟩ := hsame
    exact ⟨f', hrun, List.perm_singleton.1 hnames, hdocuments "a" "2" (by decide +kernel)⟩
  · have hfails : ((Access.write "b" "3").on
        ([.place "b.json" .folder, .call (.write "a" "1")].foldl after {})).1 =
          .error (.io "b") := by decide +kernel
    have hbefore : Folder.read
        ([.place "b.json" .folder, .call (.write "a" "1")].foldl after {}) "a" =
          .ok (some "1") := by decide +kernel
    refine ⟨_, Prod.ext hfails rfl,
      (hfailed _ ?_ (.write "b" "3") hb _ hfails "a" ha).trans hbefore⟩
    simp [Turn.IsPlain, Access.key, ha]

/-- **Nothing is kept under the key `.`**: the document would be the file `..json`, but the name of
its temporary file, which is made by exchanging what stands after the last dot, is that of the
parent folder. -/
theorem lone_dot_is_not_kept :
    IsPlain "." ∧
    (Storage.run ({} : Folder) [.write "." "\x7b\x7d", .read "."]).1 =
      [.error (.io "."), .ok none] ∧
    (Storage.run ({} : Memory) [.write "." "\x7b\x7d", .read "."]).1 =
      [.ok none, .ok (some "\x7b\x7d")] :=
  ⟨⟨by decide, by decide, by decide⟩, by decide +kernel, by decide +kernel⟩

end Folder

end FormChart
