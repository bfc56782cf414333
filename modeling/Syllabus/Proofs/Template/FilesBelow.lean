import Syllabus.Proofs.Files.Directories
import Syllabus.Proofs.Files.Distinct
import Syllabus.Proofs.Files.Spelling
import Syllabus.Template.Library

/-!
# Syllabus: files below a directory

Some of the files below a directory are picked by their names, in the order of the entries. Files
that are not picked come and go without a change to those that are or to their order, and
directories hold no files when they are made.

* **`Node.samePicked_of_replaced`**: what a change further down keeps.
* **`FileTree.filesAt_of_apply`**, **`Performs.filesAt_eq`**: what operations on other files keep.
-/

namespace Syllabus

/-! ## Files that are picked -/

namespace Node

variable {pick : String → Bool} {last : String} {entries others : List (String × Node)}
  {node new child : Node}

/-- The files at a node and below it that are picked by their names. -/
def filesPicked (pick : String → Bool) (name : String) (node : Node) : List (String × ByteArray) :=
  (node.filesBelow name).filter (pick ·.1)

/-- The files at the entries of a directory and below them that are picked. -/
def filesPickedAmong (pick : String → Bool) (start : String) (entries : List (String × Node)) :
    List (String × ByteArray) :=
  (filesAmong start entries).filter (pick ·.1)

/-- What is picked below a directory is picked among its entries. -/
theorem filesPicked_directory (pick : String → Bool) (name : String)
    (entries : List (String × Node)) :
    (directory entries).filesPicked pick name = filesPickedAmong pick (name ++ "/") entries := by
  rw [filesPicked, filesBelow]
  rfl

/-- Nothing is picked where nothing is. -/
theorem filesPickedAmong_nil (pick : String → Bool) (start : String) :
    filesPickedAmong pick start [] = [] := by
  rw [filesPickedAmong, filesAmong]
  rfl

/-- What is picked below an entry comes before what is picked behind it. -/
theorem filesPickedAmong_cons (pick : String → Bool) (start name : String) (node : Node)
    (entries : List (String × Node)) :
    filesPickedAmong pick start ((name, node) :: entries)
      = node.filesPicked pick (start ++ name) ++ filesPickedAmong pick start entries := by
  rw [filesPickedAmong, filesAmong, List.filter_append]
  rfl

/-- Whether a node holds nothing that is picked, if it has this name. -/
def PassedOver (pick : String → Bool) (name : String) (node : Node) : Prop :=
  ∀ start, node.filesPicked pick (start ++ name) = []

/-- A file is passed over if its name is never picked. -/
theorem passedOver_file (hpick : ∀ start, pick (start ++ last) = false) (content : ByteArray) :
    (file content).PassedOver pick last := by
  intro start
  rw [filesPicked, filesBelow, List.filter_cons_of_neg (by simp [hpick start]), List.filter_nil]

/-- An empty directory is passed over under any name. -/
theorem passedOver_empty (pick : String → Bool) (name : String) :
    (directory []).PassedOver pick name := by
  intro start
  rw [filesPicked_directory, filesPickedAmong_nil]

/-- Changing an entry in what is not picked keeps what is picked. -/
theorem filesPickedAmong_insert {name start : String}
    (hchild : Table.find? entries name = some child)
    (hsame : new.filesPicked pick (start ++ name) = child.filesPicked pick (start ++ name)) :
    filesPickedAmong pick start (Table.insert entries name new)
      = filesPickedAmong pick start entries := by
  -- On the entries, up to the one of that name.
  induction entries with
  | nil => cases hchild
  | cons first rest ih =>
    obtain ⟨key, old⟩ := first
    rw [Table.find?] at hchild
    rw [Table.insert]
    split at hchild
    · next hkey =>
      cases hchild
      subst hkey
      rw [if_pos rfl, filesPickedAmong_cons, filesPickedAmong_cons, hsame]
    · next hkey => rw [if_neg hkey, filesPickedAmong_cons, filesPickedAmong_cons, ih hchild]

theorem filesPickedAmong_insert_new {name start : String} (hnone : Table.find? entries name = none)
    (hnew : new.filesPicked pick (start ++ name) = []) :
    filesPickedAmong pick start (Table.insert entries name new)
      = filesPickedAmong pick start entries := by
  induction entries with
  | nil => rw [Table.insert, filesPickedAmong_cons, hnew, List.nil_append]
  | cons first rest ih =>
    obtain ⟨key, old⟩ := first
    rw [Table.find?] at hnone
    rw [Table.insert]
    split at hnone
    · cases hnone
    · next hkey => rw [if_neg hkey, filesPickedAmong_cons, filesPickedAmong_cons, ih hnone]

theorem filesPickedAmong_erase {name start : String} (hnodup : (Table.names entries).Nodup)
    (hchild : Table.find? entries name = some child)
    (hpassed : child.filesPicked pick (start ++ name) = []) :
    filesPickedAmong pick start (Table.erase entries name)
      = filesPickedAmong pick start entries := by
  induction entries with
  | nil => cases hchild
  | cons first rest ih =>
    obtain ⟨key, old⟩ := first
    obtain ⟨hkey, hrest⟩ := List.nodup_cons.mp hnodup
    rw [Table.find?] at hchild
    rw [Table.erase]
    -- The entry is the first one, or it is behind it.
    split at hchild
    · next hsame =>
      cases hchild
      subst hsame
      -- The name stands at no other entry.
      have hother : ∀ entry ∈ rest, decide (entry.1 ≠ key) = true := by
        intro entry hentry
        rw [decide_eq_true_iff]
        intro hsame
        exact hkey (List.mem_map.mpr ⟨entry, hentry, hsame⟩)
      rw [List.filter_cons_of_neg (by simp), List.filter_eq_self.mpr hother, filesPickedAmong_cons,
        hpassed, List.nil_append]
    · next hdiffers =>
      rw [List.filter_cons_of_pos (by simpa using hdiffers), filesPickedAmong_cons,
        filesPickedAmong_cons]
      exact congrArg _ (ih hrest hchild)

/-- Whether nothing that is picked stands under a name, if anything stands there. -/
def Unpicked (pick : String → Bool) (name : String) (entry : Option Node) : Prop :=
  ∀ node ∈ entry, node.PassedOver pick name

/-- The files at an entry and below it that are picked, if there is one. -/
def pickedOf (pick : String → Bool) (name : String) (entry : Option Node) :
    List (String × ByteArray) :=
  entry.elim [] (filesPicked pick name)

/-- What is not picked has nothing picked below it. -/
theorem pickedOf_eq_nil {start : String} {entry : Option Node} (h : Unpicked pick last entry) :
    pickedOf pick (start ++ last) entry = [] := by
  cases entry with
  | none => rfl
  | some node => exact h node rfl start

/-- An entry is as good as another one with the same files picked. -/
theorem filesPickedAmong_replace {name start : String} (hnodup : (Table.names entries).Nodup)
    (entry : Option Node)
    (hsame : pickedOf pick (start ++ name) entry
      = pickedOf pick (start ++ name) (Table.find? entries name)) :
    filesPickedAmong pick start (Table.replace entries name entry)
      = filesPickedAmong pick start entries := by
  cases hchild : Table.find? entries name with
  | none =>
    rw [hchild] at hsame
    cases entry with
    | none => rw [Table.replace, Table.erase_eq_self hchild]
    | some node => exact filesPickedAmong_insert_new hchild hsame
  | some child =>
    rw [hchild] at hsame
    cases entry with
    | none => exact filesPickedAmong_erase hnodup hchild hsame.symm
    | some node => exact filesPickedAmong_insert hchild hsame

/-- Whether a node is as it was, or a directory with the same files picked below it. -/
inductive SamePicked (pick : String → Bool) (node : Node) : Node → Prop where
  | refl : SamePicked pick node node
  | inside {entries others : List (String × Node)} (hnode : node = directory entries)
      (h : ∀ start, filesPickedAmong pick start others = filesPickedAmong pick start entries) :
      SamePicked pick node (directory others)

/-- The files that are picked are the same, wherever the nodes stand. -/
theorem SamePicked.filesPicked_eq (h : SamePicked pick node new) (name : String) :
    new.filesPicked pick name = node.filesPicked pick name := by
  cases h with
  | refl => rfl
  | inside hnode h => rw [hnode, filesPicked_directory, filesPicked_directory, h]

/-- What is put further down in place of something else, or taken out, if it is passed over. -/
theorem samePicked_of_replaced {entry : Option Node} {before : List String} {later : Node}
    (h : some later = replaced (some node) entry (before ++ [last])) (hdistinct : node.Distinct)
    (hentry : Unpicked pick last entry)
    (hold : Unpicked pick last (node.find? (before ++ [last]))) :
    SamePicked pick node later := by
  -- On the names on the way down, each of which leads to one entry.
  induction before generalizing node later with
  | nil =>
    cases node with
    | file content =>
      cases h
      exact .refl
    | directory entries =>
      cases h
      have hnodup := (distinct_directory_iff.mp hdistinct).1
      refine .inside rfl fun start => filesPickedAmong_replace hnodup entry ?_
      have hchild : Unpicked pick last (Table.find? entries last) := by
        simpa [find?_directory_cons] using hold
      rw [pickedOf_eq_nil hentry, pickedOf_eq_nil hchild]
  | cons name before ih =>
    cases node with
    | file content =>
      cases h
      exact .refl
    | directory entries =>
      rw [List.cons_append] at h hold
      cases h
      obtain ⟨hnodup, hchildren⟩ := distinct_directory_iff.mp hdistinct
      refine .inside rfl fun start => filesPickedAmong_replace hnodup _ ?_
      rw [find?_directory_cons] at hold
      have hnames : before ++ [last] ≠ [] := by simp
      cases hchild : Table.find? entries name with
      | none => rw [replaced_none entry hnames]
      | some child =>
        rw [hchild] at hold
        obtain ⟨changed, hchanged⟩ := exists_replaced child entry hnames
        rw [← hchanged]
        exact (ih hchanged (hchildren name child hchild) hold).filesPicked_eq (start ++ name)

end Node

/-! ## Trees -/

/-- Whether an operation changes no file that is picked: all that it changes have other endings. -/
def Operation.PassesOver (pick : String → Bool) (operation : Operation) : Prop :=
  ∀ path ∈ operation.files, ∃ ending, Path.IsEnding ending
    ∧ ending.toList <:+ path.text.toList
    ∧ ∀ name : String, ending.toList <:+ name.toList → pick name = false

namespace FileTree

open Node (PassedOver)

variable {tree later : FileTree} {pick : String → Bool} {last : String} {before : List String}

/-- The files that are picked below the directory at a place, if there is one. -/
def filesAt (pick : String → Bool) (tree : FileTree) (place : List String) :
    List (String × ByteArray) :=
  match tree.root.find? place with
  | some (.directory entries) => Node.filesPickedAmong pick "" entries
  | _ => []

/-- At a directory the files below it are picked. -/
theorem filesAt_of_directory {place : List String} {entries : List (String × Node)}
    (h : tree.root.find? place = some (.directory entries)) :
    tree.filesAt pick place = Node.filesPickedAmong pick "" entries := by
  unfold filesAt
  rw [h]

/-- Where there is no directory none are. -/
theorem filesAt_eq_nil {place : List String} (h : ¬ tree.HasDirectory place) :
    tree.filesAt pick place = [] := by
  unfold filesAt
  split
  · next entries hentries => exact absurd ⟨entries, hentries⟩ h
  · rfl

/-- What a place holds decides which files are picked there. -/
theorem filesAt_congr {place : List String} (h : later.root.find? place = tree.root.find? place) :
    later.filesAt pick place = tree.filesAt pick place := by
  unfold filesAt
  rw [h]

/-- The names that are left on the way down from a place end in the last one, too. -/
theorem exists_behind {place behind : List String} {name : String}
    (h : before ++ [last] = place ++ name :: behind) :
    ∃ inner, name :: behind = inner ++ [last] := by
  rw [← List.dropLast_concat_getLast (List.cons_ne_nil name behind), ← List.append_assoc] at h
  obtain ⟨_, rfl⟩ := List.append_singleton_inj.mp h
  exact ⟨_, (List.dropLast_concat_getLast _).symm⟩

/-- Nodes with the same picked files can stand for each other. -/
theorem filesAt_of_samePicked {place : List String} {before after : Node}
    (hbefore : tree.root.find? place = some before) (hafter : later.root.find? place = some after)
    (h : Node.SamePicked pick before after) :
    later.filesAt pick place = tree.filesAt pick place := by
  cases h with
  | refl => exact filesAt_congr (hafter.trans hbefore.symm)
  | inside hdirectory h =>
    subst hdirectory
    rw [filesAt_of_directory hafter, filesAt_of_directory hbefore, h]

/-- What has nothing below it has no files below it. -/
theorem LeafReplaced.filesAt_leaf {location : List String} {new : Option Node}
    (h : LeafReplaced tree later location new) : later.filesAt pick location = [] := by
  unfold filesAt
  rw [h.there]
  split
  · next entries =>
    cases entries with
    | nil => exact Node.filesPickedAmong_nil pick ""
    | cons first rest =>
      have hfirst := h.leaf _ rfl first.1 []
      simp [Node.find?_directory_cons, Table.find?] at hfirst
  · rfl

/-- Replacing what is passed over by something else that is, or by nothing. -/
theorem LeafReplaced.filesAt_eq {new : Option Node}
    (h : LeafReplaced tree later (before ++ [last]) new) (hdistinct : tree.Distinct)
    (hnew : Node.Unpicked pick last new)
    (hold : Node.Unpicked pick last (tree.root.find? (before ++ [last]))) (place : List String) :
    later.filesAt pick place = tree.filesAt pick place := by
  -- The change is at the place, above it, below it or beside it.
  rcases Node.eq_or_append_or_beside (before ++ [last]) place with
    rfl | ⟨name, behind, rfl⟩ | ⟨name, behind, habove⟩ | hbeside
  · rw [filesAt_eq_nil h.noDirectory, h.filesAt_leaf]
  · exact filesAt_congr ((h.nothingBelow name behind).trans
      (find?_below_eq_none h.noDirectory name behind).symm)
  · -- The change goes on from the node at the place above.
    obtain ⟨inner, hinner⟩ := exists_behind habove
    have hreplaced := Node.find?_replaced_append (some tree.root) new place name behind
    rw [← habove, ← h.replaced, Option.bind_some, Option.bind_some, hinner] at hreplaced
    rw [habove, Node.find?_append, hinner] at hold
    cases hnode : tree.root.find? place with
    | none =>
      rw [hnode, Node.replaced_none _ (by simp)] at hreplaced
      exact filesAt_congr (hreplaced.trans hnode.symm)
    | some node =>
      rw [hnode] at hreplaced hold
      have hnames : inner ++ [last] ≠ [] := by simp
      obtain ⟨changed, hchanged⟩ := Node.exists_replaced node new hnames
      have hnodes : node.Distinct := by
        intro names entries hentries
        refine hdistinct (place ++ names) entries ?_
        rw [Node.find?_append, hnode]
        exact hentries
      exact filesAt_of_samePicked hnode (hreplaced.trans hchanged.symm)
        (Node.samePicked_of_replaced hchanged hnodes hnew hold)
  · exact filesAt_congr (Node.find?_eq_of_beside h.replaced hbeside)

/-! ## Operations -/

/-- The last name of a place that is passed over. -/
theorem exists_last_of_ending {path : Path} (h : ∃ ending, Path.IsEnding ending
      ∧ ending.toList <:+ path.text.toList
      ∧ ∀ name : String, ending.toList <:+ name.toList → pick name = false) (start : List String) :
    ∃ before last, path.place start = before ++ [last] ∧ ∀ front, pick (front ++ last) = false := by
  obtain ⟨ending, hending, hsuffix, hpick⟩ := h
  obtain ⟨before, last, hplace, hlast⟩ := Path.endsIn_place hending hsuffix start
  refine ⟨before, last, hplace, fun front => hpick _ ?_⟩
  rw [String.toList_append]
  exact hlast.trans (List.suffix_append _ _)

/-- A new directory has no files that could be picked. -/
theorem filesAt_createDirectory {path : Path} (h : tree.createDirectory path = .ok later)
    (hdistinct : tree.Distinct) (place : List String) :
    later.filesAt pick place = tree.filesAt pick place := by
  have hput := leafReplaced_createDirectory h
  have hnone := (eq_of_createDirectory h).2.1
  -- There is something at the root, so the location is inside another directory.
  rcases List.eq_nil_or_concat (path.place tree.workingDirectory) with
    hroot | ⟨before, last, hplace⟩
  · rw [hroot, Node.find?_nil] at hnone
    cases hnone
  · rw [List.concat_eq_append] at hplace
    rw [hplace] at hput hnone
    refine hput.filesAt_eq hdistinct ?_ ?_ place
    · rintro _ ⟨⟩
      exact Node.passedOver_empty pick last
    · rw [hnone]
      rintro _ ⟨⟩

/-- A file that is put somewhere or taken out, and is passed over. -/
theorem LeafReplaced.filesAt_eq_of_file {new : Option Node}
    (h : LeafReplaced tree later (before ++ [last]) new) (hdistinct : tree.Distinct)
    (hpick : ∀ front, pick (front ++ last) = false)
    (hnew : ∀ node ∈ new, ∃ content, node = .file content) (place : List String) :
    later.filesAt pick place = tree.filesAt pick place := by
  refine h.filesAt_eq hdistinct (fun node hnode => ?_) (fun old hfound => ?_) place
  · obtain ⟨content, rfl⟩ := hnew node hnode
    exact Node.passedOver_file hpick content
  · cases old with
    | file content => exact Node.passedOver_file hpick content
    | directory entries => exact absurd ⟨entries, hfound⟩ h.noDirectory

/-- **One operation.** Where it passes over what is picked, all that is picked stays. -/
theorem filesAt_of_apply {operation : Operation} (hdistinct : tree.Distinct)
    (hpasses : operation.PassesOver pick) (h : operation.apply tree = .ok later)
    (place : List String) : later.filesAt pick place = tree.filesAt pick place := by
  cases operation with
  | create directory => exact filesAt_createDirectory h hdistinct place
  | write path content =>
    obtain ⟨before, last, hplace, hpick⟩ :=
      exists_last_of_ending (hpasses path (by simp [Operation.files])) tree.workingDirectory
    have hput := leafReplaced_writeFile h
    rw [hplace] at hput
    exact hput.filesAt_eq_of_file hdistinct hpick (by simp) place
  | remove path =>
    obtain ⟨before, last, hplace, hpick⟩ :=
      exists_last_of_ending (hpasses path (by simp [Operation.files])) tree.workingDirectory
    obtain ⟨rfl, content, hfile⟩ := eq_of_removeFile h
    rw [hplace] at hfile ⊢
    exact (leafReplaced_remove hfile).filesAt_eq_of_file hdistinct hpick (by simp) place
  -- The file is taken away at one place and put at the other, and both are passed over.
  | move source target =>
    obtain ⟨before, last, hplace, hpick⟩ :=
      exists_last_of_ending (hpasses source (by simp [Operation.files])) tree.workingDirectory
    obtain ⟨before', last', hplace', hpick'⟩ :=
      exists_last_of_ending (hpasses target (by simp [Operation.files])) tree.workingDirectory
    obtain rfl | ⟨content, between, hfile, hremoved, hput⟩ := exists_leafReplaced_of_renameFile h
    · rfl
    · have hbetween := hremoved.distinct_removed hdistinct
      rw [hplace] at hremoved
      rw [hplace'] at hput
      exact (hput.filesAt_eq_of_file hbetween hpick' (by simp) place).trans
        (hremoved.filesAt_eq_of_file hdistinct hpick (by simp) place)

end FileTree

/-- **All operations.** -/
theorem Performs.filesAt_eq {allowed : Operation → Prop} {tree later : FileTree}
    {pick : String → Bool} (h : Performs allowed tree later) (hdistinct : tree.Distinct)
    (hpasses : ∀ operation, allowed operation → operation.PassesOver pick) (place : List String) :
    later.filesAt pick place = tree.filesAt pick place := by
  induction h with
  | refl => rfl
  | tail hbefore hstep ih =>
    obtain ⟨operation, hallowed, happly⟩ := hstep
    have hbetween := Performs.distinct hbefore hdistinct
    exact (FileTree.filesAt_of_apply hbetween (hpasses operation hallowed) happly place).trans ih

end Syllabus
