import Mathlib.Data.List.Induction
import Syllabus.Proofs.LastItem
import Syllabus.Table

/-!
# Syllabus: setting entries of tables

Setting entries repeats no name, so a table that is built by setting entries has each name once, in
the order in which the names were first set, with what was last set for it. Its entries can then be
set again one by one, in any table that has none of them, and are found there.
-/

namespace Syllabus.Table

variable {α : Type}

/-- A name that is there keeps its place, and a new one comes last. -/
theorem names_insert (table : Table α) (name : String) (entry : α) :
    names (insert table name entry)
      = if name ∈ names table then names table else names table ++ [name] := by
  induction table with
  | nil => rfl
  | cons first rest ih =>
    obtain ⟨key, old⟩ := first
    unfold names at ih ⊢
    rw [insert]
    -- The name is that of the first entry, or is looked for among the others.
    by_cases hkey : key = name
    · simp [hkey]
    · rw [if_neg hkey, List.map_cons, ih]
      by_cases hmem : name ∈ rest.map (·.1)
      · simp [hmem]
      · simp [hmem, Ne.symm hkey]

/-- Setting an entry repeats no name. -/
theorem nodup_insert {table : Table α} (h : (names table).Nodup) (name : String) (entry : α) :
    (names (insert table name entry)).Nodup := by
  rw [names_insert]
  split
  · exact h
  · next hnew =>
    rw [List.nodup_append]
    refine ⟨h, List.nodup_cons.mpr ⟨List.not_mem_nil, List.nodup_nil⟩, ?_⟩
    rintro other hother _ hname rfl
    rw [List.mem_singleton] at hname
    exact hnew (hname ▸ hother)

/-- Nothing is found under a name that is not there. -/
theorem find?_eq_none {table : Table α} {name : String} (h : name ∉ names table) :
    find? table name = none := by
  induction table with
  | nil => rfl
  | cons first rest ih =>
    obtain ⟨key, entry⟩ := first
    simp only [names, List.map_cons, List.mem_cons, not_or] at h
    rw [find?, if_neg (Ne.symm h.1)]
    exact ih h.2

/-- A new name is set at the end. -/
theorem insert_of_fresh {table : Table α} {name : String} {entry : α} (h : name ∉ names table) :
    insert table name entry = table ++ [(name, entry)] := by
  induction table with
  | nil => rfl
  | cons first rest ih =>
    simp only [names, List.map_cons, List.mem_cons, not_or] at h
    rw [insert, if_neg (Ne.symm h.1), ih h.2]
    rfl

/-- The table with all entries of another one set in it. -/
def insertAll (table : Table α) (entries : List (String × α)) : Table α :=
  entries.foldl (fun table entry => insert table entry.1 entry.2) table

theorem nodup_insertAll {table : Table α} (h : (names table).Nodup)
    (entries : List (String × α)) : (names (insertAll table entries)).Nodup := by
  -- On the entries: each is set in a table that has no name twice.
  induction entries generalizing table with
  | nil => exact h
  | cons entry entries ih => exact ih (nodup_insert h entry.1 entry.2)

/-- An entry that is set is found, and under all other names what was found before. -/
theorem find?_insertAll {table : Table α} {entries : List (String × α)}
    (h : (names entries).Nodup) (name : String) :
    find? (insertAll table entries) name = (find? entries name).or (find? table name) := by
  induction entries generalizing table with
  | nil => rfl
  | cons entry entries ih =>
    obtain ⟨key, value⟩ := entry
    obtain ⟨hkey, hrest⟩ := List.nodup_cons.mp h
    change find? (insertAll (insert table key value) entries) name = _
    rw [ih hrest, find?_insert, find?]
    -- A name that is set first is not set again, since no name is repeated.
    by_cases hname : key = name
    · subst hname
      rw [find?_eq_none hkey]
      simp
    · simp [hname]

/-- The last of several entries is set last. -/
theorem insertAll_concat (table : Table α) (entries : List (String × α)) (entry : String × α) :
    insertAll table (entries ++ [entry]) = insert (insertAll table entries) entry.1 entry.2 := by
  rw [insertAll, List.foldl_append]
  rfl

/-- A table without repeated names is built by setting its entries in order. -/
theorem insertAll_of_nodup {entries : Table α} (h : (names entries).Nodup) :
    insertAll [] entries = entries := by
  induction entries using List.reverseRecOn with
  | nil => rfl
  | append_singleton entries entry ih =>
    have hnames : names (entries ++ [entry]) = names entries ++ [entry.1] := List.map_append
    rw [hnames, List.nodup_append] at h
    -- No name is repeated, so the last entry is a new one each time.
    have hnew : entry.1 ∉ names entries := fun hmem =>
      h.2.2 entry.1 hmem entry.1 (List.mem_singleton_self _) rfl
    rw [insertAll_concat, ih h.1, insert_of_fresh hnew]

/-- The names of a table stand in the order in which they were first set. -/
theorem names_insertAll (entries : List (String × α)) :
    names (insertAll [] entries) = (names entries).eraseDups := by
  induction entries using List.reverseRecOn with
  | nil => rfl
  | append_singleton entries entry ih =>
    have hnames : names (entries ++ [entry]) = names entries ++ [entry.1] := List.map_append
    rw [insertAll_concat, names_insert, ih, hnames, List.eraseDups_append]
    -- Setting a name again leaves the names; a new one comes behind them.
    split
    · next hmem => simp [List.removeAll, List.mem_eraseDups.mp hmem]
    · next hnew =>
      rw [List.mem_eraseDups] at hnew
      simp [List.removeAll, hnew, List.eraseDups_cons]

/-- What is found under a name is what was set last. -/
theorem find?_insertAll_eq_last (table : Table α) (entries : List (String × α)) (name : String) :
    find? (insertAll table entries) name
      = ((entries.findRev? (·.1 = name)).map (·.2)).or (find? table name) := by
  -- From the end: the last entry counts if it has the name, and those before it otherwise.
  induction entries using List.reverseRecOn with
  | nil => rfl
  | append_singleton entries entry ih =>
    rw [insertAll_concat, find?_insert, ih, findRev?_append]
    split
    · next hname => simp [List.findRev?, hname]
    · next hname => simp [List.findRev?, hname]

/-- What is found stands in the table. -/
theorem mem_of_find? {table : Table α} {name : String} {value : α}
    (h : find? table name = some value) : (name, value) ∈ table := by
  induction table with
  | nil => cases h
  | cons first rest ih =>
    obtain ⟨key, old⟩ := first
    rw [find?] at h
    split at h
    · next hname =>
      cases h
      rw [hname]
      exact List.mem_cons_self
    · exact List.mem_cons_of_mem _ (ih h)

/-- Where no name is repeated, every entry is found under its name. -/
theorem find?_eq_some_of_mem {table : Table α} (h : (names table).Nodup) {entry : String × α}
    (hmem : entry ∈ table) : find? table entry.1 = some entry.2 := by
  induction table with
  | nil => cases hmem
  | cons first rest ih =>
    obtain ⟨hfirst, hrest⟩ := List.nodup_cons.mp h
    rw [find?]
    rcases List.mem_cons.mp hmem with rfl | hmem
    · rw [if_pos rfl]
    · -- The names differ, as no name stands twice.
      have hother : first.1 ≠ entry.1 := fun hname =>
        hfirst (List.mem_map.mpr ⟨entry, hmem, hname.symm⟩)
      rw [if_neg hother, ih hrest hmem]

/-- Entries set in another order, where those of a name are all the same. -/
theorem find?_insertAll_of_perm (table : Table α) {entries others : List (String × α)}
    (h : entries.Perm others) {name : String}
    (hsame : ∀ entry ∈ entries, ∀ other ∈ entries, entry.1 = name → other.1 = name →
      entry.2 = other.2) :
    find? (insertAll table others) name = find? (insertAll table entries) name := by
  rw [find?_insertAll_eq_last, find?_insertAll_eq_last]
  -- In both orders some entry of the name is set last, or none is set at all.
  cases hlast : entries.findRev? (·.1 = name) with
  | none =>
    have hnone : others.findRev? (·.1 = name) = none :=
      findRev?_eq_none_iff.mpr fun other hother =>
        findRev?_eq_none_iff.mp hlast other (h.mem_iff.mpr hother)
    rw [hnone]
  | some entry =>
    have hentry : entry ∈ entries := mem_of_findRev? hlast
    have hname : entry.1 = name := by simpa using of_findRev? hlast
    cases hlast' : others.findRev? (·.1 = name) with
    | none =>
      have hnone := findRev?_eq_none_iff.mp hlast' entry (h.mem_iff.mp hentry)
      exact absurd (by simpa using hname) hnone
    | some other =>
      have hother : other ∈ entries := h.mem_iff.mpr (mem_of_findRev? hlast')
      have hname' : other.1 = name := by simpa using of_findRev? hlast'
      rw [Option.map_some, Option.map_some, hsame entry hentry other hother hname hname']

/-- The names are those that were there and those of the entries that are set. -/
theorem mem_names_insertAll {table : Table α} {entries : List (String × α)} {name : String} :
    name ∈ names (insertAll table entries) ↔ name ∈ names table ∨ name ∈ names entries := by
  induction entries using List.reverseRecOn with
  | nil => simp [insertAll, names]
  | append_singleton entries entry ih =>
    have hnames : names (entries ++ [entry]) = names entries ++ [entry.1] := List.map_append
    rw [insertAll_concat, names_insert, hnames, List.mem_append, List.mem_singleton, ← or_assoc,
      ← ih]
    split
    · next hold =>
      constructor
      · exact .inl
      · rintro (hmem | rfl)
        · exact hmem
        · exact hold
    · rw [List.mem_append, List.mem_singleton]

/-! ## Tables with the same entries -/

section SameEntries

variable {first second : Table α}

/-- Where no name is repeated, to be found and to stand there are the same. -/
theorem find?_eq_some_iff {table : Table α} (h : (names table).Nodup) {name : String} {entry : α} :
    find? table name = some entry ↔ (name, entry) ∈ table :=
  ⟨mem_of_find?, find?_eq_some_of_mem h⟩

/-- The order of the entries does not matter to what is found. -/
theorem find?_of_perm (hnodup : (names first).Nodup) (h : first.Perm second) (name : String) :
    find? second name = find? first name := by
  have hother : (names second).Nodup := (h.map _).nodup_iff.mp hnodup
  -- The same entries stand in both tables.
  refine Option.ext fun entry => ?_
  rw [find?_eq_some_iff hother, find?_eq_some_iff hnodup, h.mem_iff]

/-- And tables in which the same is found differ in their order only. -/
theorem perm_of_find? (hfirst : (names first).Nodup) (hsecond : (names second).Nodup)
    (h : ∀ name, find? first name = find? second name) : first.Perm second := by
  have hnodup {table : Table α} (h : (names table).Nodup) : table.Nodup :=
    List.Pairwise.of_map _ (fun _ _ hname heq => hname (congrArg _ heq)) h
  refine (List.perm_ext_iff_of_nodup (hnodup hfirst) (hnodup hsecond)).mpr fun entry => ?_
  rw [← find?_eq_some_iff hfirst, h, find?_eq_some_iff hsecond]

/-- The names of a sorted table are in order. -/
theorem pairwise_sorted (table : Table α) : (sorted table).Pairwise (·.1 ≤ ·.1) := by
  have h : (sorted table).Pairwise fun a b => decide (a.1 ≤ b.1) = true :=
    List.pairwise_mergeSort (fun a b c hab hbc => by
      rw [decide_eq_true_iff] at hab hbc ⊢
      exact String.le_trans hab hbc)
    (fun a b => by
      rw [Bool.or_eq_true, decide_eq_true_iff, decide_eq_true_iff]
      exact String.le_total a.1 b.1) table
  exact h.imp of_decide_eq_true

/-- A table whose names are in order is left as it is. -/
theorem sorted_of_pairwise {table : Table α} (h : table.Pairwise (·.1 ≤ ·.1)) :
    sorted table = table :=
  List.mergeSort_of_pairwise (h.imp decide_eq_true)

theorem names_sorted_perm (table : Table α) : (names (sorted table)).Perm (names table) :=
  (List.mergeSort_perm _ _).map _

theorem nodup_sorted {table : Table α} (h : (names table).Nodup) : (names (sorted table)).Nodup :=
  (names_sorted_perm table).nodup_iff.mpr h

theorem find?_sorted {table : Table α} (h : (names table).Nodup) (name : String) :
    find? (sorted table) name = find? table name :=
  find?_of_perm h (List.mergeSort_perm _ _).symm name

/-- Tables with the same names have them in the same order then. -/
theorem names_sorted_eq_of_perm (h : (names first).Perm (names second)) :
    names (sorted first) = names (sorted second) := by
  have hperm := (names_sorted_perm first).trans (h.trans (names_sorted_perm second).symm)
  -- Two lists of the same names that are both in order are one list.
  exact hperm.eq_of_pairwise (fun _ _ _ _ hle hge => String.le_antisymm hle hge)
    (List.pairwise_map.mpr (pairwise_sorted first))
    (List.pairwise_map.mpr (pairwise_sorted second))

/-- **Tables in which the same is found are the same in the order of their names.** -/
theorem sorted_eq_of_find? (hfirst : (names first).Nodup) (hsecond : (names second).Nodup)
    (h : ∀ name, find? first name = find? second name) : sorted first = sorted second := by
  have hsorted : (sorted first).Perm (sorted second) :=
    (List.mergeSort_perm _ _).trans
      ((perm_of_find? hfirst hsecond h).trans (List.mergeSort_perm _ _).symm)
  refine hsorted.eq_of_pairwise (fun a b ha hb hle hge => ?_) (pairwise_sorted first)
    (pairwise_sorted second)
  -- There is one entry of each name.
  have hname : a.1 = b.1 := String.le_antisymm hle hge
  have ha := find?_eq_some_of_mem hfirst ((List.mergeSort_perm _ _).mem_iff.mp ha)
  have hb := find?_eq_some_of_mem hsecond ((List.mergeSort_perm _ _).mem_iff.mp hb)
  rw [h, hname, hb, Option.some.injEq] at ha
  exact Prod.ext hname ha.symm

end SameEntries

/-! ## Setting an entry again -/

/-- Setting what is there already changes nothing. -/
theorem insert_same {table : Table α} {name : String} {entry : α}
    (h : find? table name = some entry) : insert table name entry = table := by
  induction table with
  | nil => cases h
  | cons first rest ih =>
    obtain ⟨key, old⟩ := first
    rw [find?] at h
    rw [insert]
    split at h
    · next hkey =>
      cases h
      rw [if_pos hkey]
    · next hkey => rw [if_neg hkey, ih h]

/-- Of two settings of one name the later counts. -/
theorem insert_insert (table : Table α) (name : String) (old new : α) :
    insert (insert table name old) name new = insert table name new := by
  induction table with
  | nil => simp [insert]
  | cons first rest ih =>
    obtain ⟨key, entry⟩ := first
    by_cases hkey : key = name
    · simp [insert, hkey]
    · simp [insert, hkey, ih]

/-- A name that is erased leaves nothing of what was set for it. -/
theorem erase_insert (table : Table α) (name : String) (entry : α) :
    erase (insert table name entry) name = erase table name := by
  induction table with
  | nil => simp [insert, erase]
  | cons first rest ih =>
    obtain ⟨key, old⟩ := first
    rw [insert]
    split
    · next hkey => simp [erase, hkey]
    · next hkey =>
      rw [erase, erase, List.filter_cons_of_pos (by simpa using hkey),
        List.filter_cons_of_pos (by simpa using hkey)]
      exact congrArg _ ih

/-- Erasing a name that is not there changes nothing. -/
theorem erase_eq_self {table : Table α} {name : String} (h : find? table name = none) :
    erase table name = table := by
  induction table with
  | nil => rfl
  | cons first rest ih =>
    obtain ⟨key, old⟩ := first
    rw [find?] at h
    split at h
    · cases h
    · next hkey =>
      rw [erase, List.filter_cons_of_pos (by simpa using hkey)]
      exact congrArg _ (ih h)

end Syllabus.Table
