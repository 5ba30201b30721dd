import TypedCalc.Host.Machine
import TypedCalc.Proofs.Result

/-!
# What stays as it was on a machine

A path leads to the same place as long as the directories on its way stay, so a text that is read
from a file is read from it again after anything that only adds to the tree.

* `Machine.Extends.read_eq_ok`: what is added leaves the texts of all files as they were.
* `Machine.OnlyAdds.provideDirectories`, `Machine.OnlyAdds.openLog`: making directories and opening
  a log only add to the tree.
* `Machine.HasDirectory.run_provideDirectories`: a directory that is there need not be made.
* `Machine.read_of_writeFile`: a file has the text that was put into it.
-/

namespace TypedCalc

namespace Path

theorem join_of_absolute {directory name : String} (h : "/".toList <+: name.toList) :
    join directory name = name := by
  rw [join, if_pos (String.startsWith_string_iff.mpr h)]

theorem join_of_relative {directory name : String} (hname : ¬ "/".toList <+: name.toList)
    (hdirectory : directory ≠ "") (hlast : ¬ "/".toList <:+ directory.toList) :
    join directory name = directory ++ "/" ++ name := by
  have hstarts : name.startsWith "/" = false :=
    Bool.eq_false_iff.mpr fun h => hname (String.startsWith_string_iff.mp h)
  have hends : directory.endsWith "/" = false := by
    rw [← String.endsWith_toSlice, Bool.eq_false_iff, ne_eq, String.Slice.endsWith_string_iff,
      String.copy_toSlice]
    exact hlast
  have hempty : directory.isEmpty = false := by simpa using hdirectory
  rw [join, hstarts, hends, hempty]
  rfl

end Path

namespace Machine

/-! ## Places -/

theorem lookup_filter_ne {place other : Place} (h : other ≠ place)
    (nodes : List (Place × FileNode)) :
    (nodes.filter fun entry => entry.1 != place).lookup other = nodes.lookup other := by
  induction nodes with
  | nil => rfl
  | cons entry rest ih =>
    obtain ⟨found, node⟩ := entry
    by_cases hfound : found = place
    · have hother : (other == found) = false := beq_eq_false_iff_ne.mpr (hfound ▸ h)
      rw [List.filter_cons_of_neg (by simp [hfound]), ih, List.lookup_cons, hother]
    · rw [List.filter_cons_of_pos (by simp [hfound]), List.lookup_cons, List.lookup_cons, ih]

variable {machine larger : Machine}

theorem nodeAt_nil (machine : Machine) : machine.nodeAt [] = some .directory := if_pos rfl

theorem nodeAt_put_self (machine : Machine) {place : Place} (h : place ≠ []) (node : FileNode) :
    (machine.put place node).nodeAt place = some node := by
  rw [nodeAt, if_neg h]
  exact List.lookup_cons_self

theorem nodeAt_put_of_ne (machine : Machine) {place other : Place} (h : other ≠ place)
    (node : FileNode) : (machine.put place node).nodeAt other = machine.nodeAt other := by
  have hother : (other == place) = false := beq_eq_false_iff_ne.mpr h
  have hlookup : (machine.put place node).nodes.lookup other = machine.nodes.lookup other := by
    show ((place, node) :: machine.nodes.filter fun entry => entry.1 != place).lookup other = _
    rw [List.lookup_cons, hother, lookup_filter_ne h]
  rw [nodeAt, nodeAt, hlookup]

/-- Something that is not a directory is not at the root. -/
theorem ne_nil_of_nodeAt {place : Place} (h : machine.nodeAt place ≠ some .directory) :
    place ≠ [] := by
  rintro rfl
  exact h machine.nodeAt_nil

/-! ## Paths -/

/-- Whether a machine has the directories of another one, and paths start from the same places. -/
structure KeepsDirectories (machine larger : Machine) : Prop where
  home : larger.home = machine.home
  currentDirectory : larger.currentDirectory = machine.currentDirectory
  directory : ∀ {place}, machine.nodeAt place = some .directory →
    larger.nodeAt place = some .directory

theorem KeepsDirectories.walk_eq_ok (h : machine.KeepsDirectories larger) {place last : Place}
    {steps : List (List Char)} (hwalk : machine.walk place steps = .ok last) :
    larger.walk place steps = .ok last := by
  induction steps generalizing place with
  | nil => exact hwalk
  | cons step rest ih =>
    rw [walk] at hwalk ⊢
    cases hnode : machine.nodeAt place with
    | none =>
      rw [hnode] at hwalk
      exact nomatch hwalk
    | some node =>
      rw [hnode] at hwalk
      cases node with
      | file text => exact nomatch hwalk
      | directory =>
        rw [h.directory hnode]
        dsimp only at hwalk ⊢
        split at hwalk
        · rename_i hstay
          rw [if_pos hstay]
          exact ih hwalk
        · rename_i hstay
          rw [if_neg hstay]
          split at hwalk
          · rename_i hback
            rw [if_pos hback]
            exact ih hwalk
          · rename_i hback
            rw [if_neg hback]
            split at hwalk
            · exact nomatch hwalk
            · rename_i hname
              rw [if_neg hname]
              exact ih hwalk

theorem KeepsDirectories.locate_eq_ok (h : machine.KeepsDirectories larger) {path : List Char}
    {place : Place} (hlocate : machine.locate path = .ok place) :
    larger.locate path = .ok place := by
  rw [locate] at hlocate ⊢
  split at hlocate
  · exact nomatch hlocate
  rename_i hempty
  split at hlocate
  · exact nomatch hlocate
  rename_i hnull
  split at hlocate
  · exact nomatch hlocate
  rename_i hlong
  rw [if_neg hempty, if_neg hnull, if_neg hlong, h.currentDirectory]
  exact h.walk_eq_ok hlocate

theorem read_eq_ok_iff {path text : String} : machine.read path = .ok text ↔
    ∃ place, machine.locate path.toList = .ok place ∧
      machine.nodeAt place = some (.file text) := by
  rw [read, Result.bind_eq_ok_iff]
  refine exists_congr fun place => and_congr_right fun _ => ?_
  constructor
  · intro h
    split at h
    · rename_i hnode
      cases h
      exact hnode
    · exact nomatch h
    · exact nomatch h
  · intro hnode
    rw [hnode]

/-- What an edited file held, and where it is. -/
theorem edit_eq_ok {path : String} {change : String → String}
    (h : machine.edit path change = .ok larger) :
    ∃ place text, machine.locate path.toList = .ok place ∧
      (machine.nodeAt place = some (.file text) ∨ machine.nodeAt place = none ∧ text = "") ∧
      larger = machine.put place (.file (change text)) := by
  obtain ⟨place, hlocate, h⟩ := Result.bind_eq_ok_iff.mp h
  split at h
  · rename_i text hnode
    cases h
    exact ⟨place, text, hlocate, .inl hnode, rfl⟩
  · exact nomatch h
  · rename_i hnode
    cases h
    exact ⟨place, "", hlocate, .inr ⟨hnode, rfl⟩, rfl⟩

/-- A file can be edited where no directory is. -/
theorem exists_edit {path : String} {place : Place}
    (hlocate : machine.locate path.toList = .ok place)
    (hnode : machine.nodeAt place ≠ some .directory) (change : String → String) :
    ∃ text, machine.edit path change = .ok (machine.put place (.file text)) := by
  cases hfound : machine.nodeAt place with
  | none =>
    refine ⟨change "", Result.bind_eq_ok_iff.mpr ⟨place, hlocate, ?_⟩⟩
    rw [hfound]
  | some node =>
    cases node with
    | directory => exact absurd hfound hnode
    | file text =>
      refine ⟨change text, Result.bind_eq_ok_iff.mpr ⟨place, hlocate, ?_⟩⟩
      rw [hfound]

/-- A file that is put where no directory is leaves all directories. -/
theorem keepsDirectories_put {place : Place} (h : machine.nodeAt place ≠ some .directory)
    (node : FileNode) : machine.KeepsDirectories (machine.put place node) where
  home := rfl
  currentDirectory := rfl
  directory := by
    intro other hother
    have hne : other ≠ place := by
      rintro rfl
      exact h hother
    rw [nodeAt_put_of_ne machine hne, hother]

/-- A look at a path sees what is at its place. -/
theorem find?_of_locate {path : String} {place : Place}
    (h : machine.locate path.toList = .ok place) : machine.find? path = machine.nodeAt place := by
  rw [find?, h]

/-- **What is put elsewhere leaves what is at a path as it was.** -/
theorem find?_read_put_of_ne {path : String} {place other : Place}
    (hlocate : machine.locate path.toList = .ok place) (hne : place ≠ other)
    (hother : machine.nodeAt other ≠ some .directory) (node : FileNode) :
    (machine.put other node).find? path = machine.find? path ∧
      (machine.put other node).read path = machine.read path := by
  have hlarger := (keepsDirectories_put hother node).locate_eq_ok hlocate
  have hnode := nodeAt_put_of_ne machine hne node
  constructor
  · rw [find?_of_locate hlarger, find?_of_locate hlocate, hnode]
  · simp only [read, hlocate, hlarger, bind, Except.bind, hnode]

theorem keepsDirectories_edit {path : String} {change : String → String}
    (h : machine.edit path change = .ok larger) : machine.KeepsDirectories larger := by
  obtain ⟨place, text, -, hnode, rfl⟩ := edit_eq_ok h
  refine keepsDirectories_put ?_ _
  rcases hnode with hnode | ⟨hnode, -⟩ <;> rw [hnode] <;> nofun

theorem read_of_edit {path text : String} (h : machine.edit path (fun _ => text) = .ok larger) :
    larger.read path = .ok text := by
  have hkeeps := keepsDirectories_edit h
  obtain ⟨place, held, hlocate, hnode, rfl⟩ := edit_eq_ok h
  have hfile : machine.nodeAt place ≠ some .directory := by
    rcases hnode with hnode | ⟨hnode, -⟩ <;> rw [hnode] <;> nofun
  exact read_eq_ok_iff.mpr ⟨place, hkeeps.locate_eq_ok hlocate,
    nodeAt_put_self machine (ne_nil_of_nodeAt hfile) _⟩

/-! ## Adding to the tree -/

/-- Whether a machine has all that another one has, where it has it. -/
structure Extends (machine larger : Machine) : Prop where
  home : larger.home = machine.home
  currentDirectory : larger.currentDirectory = machine.currentDirectory
  nodeAt : ∀ {place node}, machine.nodeAt place = some node → larger.nodeAt place = some node

namespace Extends

theorem refl (machine : Machine) : machine.Extends machine := ⟨rfl, rfl, id⟩

theorem trans {largest : Machine} (h : machine.Extends larger) (h' : larger.Extends largest) :
    machine.Extends largest where
  home := h'.home.trans h.home
  currentDirectory := h'.currentDirectory.trans h.currentDirectory
  nodeAt hnode := h'.nodeAt (h.nodeAt hnode)

theorem keepsDirectories (h : machine.Extends larger) : machine.KeepsDirectories larger :=
  ⟨h.home, h.currentDirectory, h.nodeAt⟩

/-- **What is added leaves the texts of all files as they were.** -/
theorem read_eq_ok (h : machine.Extends larger) {path text : String}
    (hread : machine.read path = .ok text) : larger.read path = .ok text := by
  obtain ⟨place, hlocate, hnode⟩ := read_eq_ok_iff.mp hread
  exact read_eq_ok_iff.mpr ⟨place, h.keepsDirectories.locate_eq_ok hlocate, h.nodeAt hnode⟩

theorem put_of_eq_none {place : Place} (h : machine.nodeAt place = none) (node : FileNode) :
    machine.Extends (machine.put place node) where
  home := rfl
  currentDirectory := rfl
  nodeAt := by
    intro other found hother
    have hne : other ≠ place := by
      rintro rfl
      exact nomatch h.symm.trans hother
    rw [nodeAt_put_of_ne machine hne, hother]

theorem put_of_eq_some {place : Place} {node : FileNode} (h : machine.nodeAt place = some node)
    (hplace : place ≠ []) : machine.Extends (machine.put place node) where
  home := rfl
  currentDirectory := rfl
  nodeAt := by
    intro other found hother
    by_cases heq : other = place
    · subst heq
      rw [nodeAt_put_self machine hplace, ← hother, h]
    · rw [nodeAt_put_of_ne machine heq]
      exact hother

/-- A file is added, or it keeps its text. -/
theorem edit_id {path : String} (h : machine.edit path id = .ok larger) :
    machine.Extends larger := by
  obtain ⟨place, text, -, hnode | ⟨hnode, rfl⟩, rfl⟩ := edit_eq_ok h
  · exact put_of_eq_some hnode (ne_nil_of_nodeAt (by rw [hnode]; nofun))
  · exact put_of_eq_none hnode _

theorem makeDirectory {path : String} (h : machine.makeDirectory path = .ok larger) :
    machine.Extends larger := by
  obtain ⟨place, -, h⟩ := Result.bind_eq_ok_iff.mp h
  split at h
  · exact nomatch h
  · rename_i hnode
    cases h
    exact put_of_eq_none hnode _

end Extends

/-! ## Operations that only add -/

section

variable {operation : Machine → Except FileFaultCause Machine} (path : String)

theorem run_of_ok (h : operation machine = .ok larger) :
    (run path operation).run machine = (.ok (), larger) := by
  simp only [run, StateT.run_bind, StateT.run_get, pure_bind, h, StateT.run_set, StateT.run_pure]
  rfl

theorem run_of_error {cause : FileFaultCause} (h : operation machine = .error cause) :
    (run path operation).run machine = (.error ⟨cause, path⟩, machine) := by
  simp only [run, StateT.run_bind, StateT.run_get, pure_bind, h, StateT.run_pure]
  rfl

end

/-- Whether an operation only adds to the tree of a machine. -/
def OnlyAdds {α : Type} (operation : StateM Machine α) : Prop :=
  ∀ machine : Machine, machine.Extends (operation.run machine).2

namespace OnlyAdds

variable {α β : Type}

theorem pure (a : α) : OnlyAdds (pure a) := Extends.refl

theorem bind {operation : StateM Machine α} {next : α → StateM Machine β}
    (h : OnlyAdds operation) (hnext : ∀ a, OnlyAdds (next a)) : OnlyAdds (operation >>= next) :=
  fun machine => (h machine).trans (hnext _ _)

theorem run {path : String} {operation : Machine → Except FileFaultCause Machine}
    (h : ∀ machine larger, operation machine = .ok larger → machine.Extends larger) :
    OnlyAdds (Machine.run path operation) := by
  intro machine
  cases hresult : operation machine with
  | ok larger =>
    rw [run_of_ok path hresult]
    exact h machine larger hresult
  | error cause =>
    rw [run_of_error path hresult]
    exact .refl machine

theorem kind? (path : String) : OnlyAdds (Host.kind? path) := Extends.refl

theorem expand (path : String) : OnlyAdds (Host.expand path) := Extends.refl

theorem absolute (path : String) : OnlyAdds (Host.absolute path) := Extends.refl

theorem makeDirectory (path : String) : OnlyAdds (Host.makeDirectory path) :=
  run fun _ _ => .makeDirectory

theorem provideDirectory (path : String) : OnlyAdds (Host.provideDirectory path) := by
  refine .bind (makeDirectory path) fun result => ?_
  cases result with
  | ok _ => exact .pure _
  | error fault =>
    refine .bind (kind? path) fun kind => ?_
    split <;> exact .pure _

/-- Making directories on the way to a path only adds to the tree. -/
theorem provideDirectories (path : List Char) : OnlyAdds (Host.provideDirectories path) := by
  rw [Host.provideDirectories]
  split
  · rename_i h
    have habove := provideDirectories (Host.parent path)
    refine .bind (kind? _) fun kind => ?_
    split
    · exact provideDirectory _
    · refine .bind habove fun result => ?_
      split
      · exact provideDirectory _
      · exact provideDirectory _
      · exact .pure _
  · exact provideDirectory _
termination_by path.length
decreasing_by rename_i h; exact h.2

theorem openLog (path : String) : OnlyAdds (Host.openLog path) :=
  run fun _ _ => .edit_id

end OnlyAdds

/-! ## Looking at files -/

theorem run_expand (machine : Machine) (path : String) :
    (Host.expand path : StateM Machine _).run machine =
      (Path.expandHome machine.home path, machine) := rfl

theorem run_absolute (machine : Machine) (path : String) :
    (Host.absolute path : StateM Machine _).run machine =
      (Path.normalize (Path.join
        (String.ofList ('/' :: List.intercalate ['/'] machine.currentDirectory)) path),
        machine) := rfl

theorem run_kind? (machine : Machine) (path : String) :
    (Host.kind? path : StateM Machine _).run machine =
      ((machine.find? path).map FileNode.kind, machine) := rfl

theorem run_loadYaml (machine : Machine) (text : String) :
    (Host.loadYaml text : StateM Machine _).run machine = (machine.loadYaml text, machine) := rfl

theorem run_readText (machine : Machine) (path : String) :
    (Host.readText path : StateM Machine _).run machine =
      (((machine.read path).mapError fun cause => (⟨cause, path⟩ : FileFault)).map fun text =>
        String.ofList (Host.unifyLines text.toList), machine) := rfl

theorem run_readText_of_ok {path text : String} (h : machine.read path = .ok text) :
    (Host.readText path : StateM Machine _).run machine =
      (.ok (String.ofList (Host.unifyLines text.toList)), machine) := by
  rw [run_readText, h]
  rfl

/-- A file that can be read is there. -/
theorem isSome_find?_of_read {path text : String} (h : machine.read path = .ok text) :
    (machine.find? path).isSome := by
  obtain ⟨place, hlocate, hnode⟩ := read_eq_ok_iff.mp h
  rw [find?, hlocate]
  dsimp only
  rw [hnode]
  rfl

/-! ## What is there already -/

theorem KeepsDirectories.find?_eq_directory (h : machine.KeepsDirectories larger) {path : String}
    (hfind : machine.find? path = some .directory) : larger.find? path = some .directory := by
  rw [find?] at hfind
  split at hfind
  · rename_i hlocate
    rw [find?_of_locate (h.locate_eq_ok hlocate), h.directory hfind]
  · exact nomatch hfind

/-- Whether a path leads to a directory, and what is above it leads to one as well. -/
structure HasDirectory (machine : Machine) (path : List Char) : Prop where
  short : Path.withoutFinalSlashes path = path
  there : machine.find? (String.ofList path) = some .directory
  above : Host.parent path = [] ∨
    machine.find? (String.ofList (Host.parent path)) = some .directory

theorem KeepsDirectories.hasDirectory (h : machine.KeepsDirectories larger) {path : List Char}
    (hpath : machine.HasDirectory path) : larger.HasDirectory path where
  short := hpath.short
  there := h.find?_eq_directory hpath.there
  above := hpath.above.imp_right h.find?_eq_directory

namespace HasDirectory

variable {path : List Char}

theorem run_provideDirectory (h : machine.HasDirectory path) :
    (Host.provideDirectory (String.ofList path) : StateM Machine _).run machine =
      (.ok (), machine) := by
  have hmake : machine.makeDirectory (String.ofList path) = .error .alreadyThere := by
    have hthere := h.there
    rw [find?] at hthere
    split at hthere
    · rename_i place hlocate
      rw [String.toList_ofList, ← h.short] at hlocate
      refine Result.bind_eq_error_iff.mpr (.inr ⟨place, ?_, ?_⟩)
      · rw [String.toList_ofList, hlocate]
      · rw [hthere]
    · cases hthere
  have hrun : (Host.makeDirectory (String.ofList path) : StateM Machine _).run machine =
    (.error ⟨.alreadyThere, String.ofList path⟩, machine) := run_of_error _ hmake
  have hkind : (Host.isDirectory (String.ofList path) : StateM Machine _).run machine =
      (true, machine) := by
    show ((machine.find? (String.ofList path)).map FileNode.kind == some .directory, machine) = _
    rw [h.there]
    rfl
  rw [Host.provideDirectory, StateT.run_bind, hrun]
  show StateT.run (Host.isDirectory _ >>= _) machine = _
  rw [StateT.run_bind, hkind]
  rfl

/-- A directory that is there need not be made. -/
theorem run_provideDirectories (h : machine.HasDirectory path) :
    (Host.provideDirectories path : StateM Machine _).run machine = (.ok (), machine) := by
  rw [Host.provideDirectories]
  split
  · rename_i hnamed
    have habove := h.above.resolve_left hnamed.1
    rw [StateT.run_bind, run_kind?, habove]
    exact h.run_provideDirectory
  · exact h.run_provideDirectory

end HasDirectory

/-! ## Writing a file -/

/-- **A file has the text that was put into it**, and paths go on starting from the same places. -/
theorem read_of_writeFile {path text : String}
    (h : (Host.writeFile path text : StateM Machine _).run machine = (.ok (), larger)) :
    larger.read path = .ok text ∧ machine.KeepsDirectories larger := by
  have hrun : (Host.writeFile path text : StateM Machine _).run machine =
    (Machine.run path fun machine => machine.edit path fun _ => text).run machine := rfl
  cases hedit : machine.edit path fun _ => text with
  | ok edited =>
    rw [hrun, run_of_ok path hedit] at h
    cases h
    exact ⟨read_of_edit hedit, keepsDirectories_edit hedit⟩
  | error cause =>
    rw [hrun, run_of_error path hedit] at h
    exact nomatch h

end Machine

end TypedCalc
