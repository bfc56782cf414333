import Mathlib.Data.ENat.Basic
import Mathlib.Data.Prod.Lex
import Syllabus.Export.Import

/-!
# Syllabus: the order of an import

Lessons and pages stand in the order in which a list of numbers first names them, and what it does
not name comes last, by number. The numbers of an export are in ascending order, so no two lessons
and no two items share one, and sorting them by rank leaves no ties.

* **`Export.ascending_of_read?`**: the numbers of an export.
* **`Export.pairwise_inOrder`**: what is put in order is so strictly.
-/

namespace Syllabus

/-! ## Things by number -/

/-- Whether the numbers of things ascend. -/
def ById.Ascending {α : Type} (things : ById α) : Prop := things.Pairwise fun a b => a.1 < b.1

namespace ById

variable {α : Type}

theorem Ascending.nodup {things : ById α} (h : things.Ascending) : (things.map (·.1)).Nodup :=
  List.pairwise_map.mpr (h.imp fun hlt => UInt32.ne_of_lt hlt)

/-- What is in the list after an insertion was there or has been inserted. -/
theorem mem_insert {id : Id} {thing : α} {things : ById α} {entry : Id × α}
    (h : entry ∈ insert id thing things) : entry = (id, thing) ∨ entry ∈ things := by
  induction things with
  | nil => exact .inl (List.mem_singleton.mp h)
  | cons first rest ih =>
    obtain ⟨key, old⟩ := first
    rw [insert] at h
    split at h
    · exact List.mem_cons.mp h
    · split at h
      · exact (List.mem_cons.mp h).imp_right (.tail _)
      · rcases List.mem_cons.mp h with rfl | h
        · exact .inr List.mem_cons_self
        · exact (ih h).imp_right (.tail _)

/-- An insertion keeps the ids ascending. -/
theorem ascending_insert {things : ById α} (h : things.Ascending) (id : Id) (thing : α) :
    Ascending (insert id thing things) := by
  induction things with
  | nil => exact List.pairwise_singleton _ _
  | cons first rest ih =>
    obtain ⟨key, old⟩ := first
    obtain ⟨hfirst, hrest⟩ := List.pairwise_cons.mp h
    rw [insert]
    -- The id comes before the first one, is the same, or belongs further behind.
    split
    · next hlt =>
      refine List.pairwise_cons.mpr ⟨fun entry hentry => ?_, h⟩
      rcases List.mem_cons.mp hentry with rfl | hentry
      · exact hlt
      · exact UInt32.lt_trans hlt (hfirst entry hentry)
    · next hge =>
      split
      · next hsame =>
        subst hsame
        exact List.pairwise_cons.mpr ⟨hfirst, hrest⟩
      · next hother =>
        have hlt : key < id := UInt32.lt_of_le_of_ne (UInt32.not_lt.mp hge) (Ne.symm hother)
        refine List.pairwise_cons.mpr ⟨fun entry hentry => ?_, ih hrest⟩
        rcases mem_insert hentry with rfl | hentry
        · exact hlt
        · exact hfirst entry hentry

end ById

namespace Export

open Json (Raw)

/-- Things that are read by id are ascending. -/
theorem ascending_of_byId? {α : Type} {read : Raw → Option α} {raw : Raw} {things : ById α}
    (h : byId? read raw = some things) : things.Ascending := by
  cases raw with
  | object entries =>
    -- On the entries, with the things that have been read so far.
    suffices hfold : ∀ start : ById α, start.Ascending →
        entries.foldlM (fun things entry => do
          let id ← Text.readCanonical (Nat.pow 2 32) entry.1
          let thing ← read entry.2
          some (ById.insert (.ofNat id) thing things)) start = some things → things.Ascending from
      hfold [] List.Pairwise.nil h
    clear h
    induction entries with
    | nil =>
      intro start hstart h
      cases h
      exact hstart
    | cons entry rest ih =>
      intro start hstart h
      rw [List.foldlM_cons] at h
      obtain ⟨next, hnext, h⟩ := Option.bind_eq_some_iff.mp h
      obtain ⟨id, _, hnext⟩ := Option.bind_eq_some_iff.mp hnext
      obtain ⟨thing, _, hnext⟩ := Option.bind_eq_some_iff.mp hnext
      cases hnext
      exact ih _ (ById.ascending_insert hstart _ thing) h
  | _ => cases h

theorem ascending_of_orElse? {α : Type} {read : Raw → Option α} {entry : Option Raw}
    {things : ById α} (h : orElse? [] (byId? read) entry = some things) : things.Ascending := by
  cases entry with
  | none =>
    cases h
    exact List.Pairwise.nil
  | some raw => exact ascending_of_byId? h

/-- **The numbers of an export.** Those of the lessons ascend, and so do those of the items. -/
theorem ascending_of_read? {text : String} {exported : Export} (h : read? text = some exported) :
    exported.lessons.Ascending ∧ exported.items.Ascending := by
  obtain ⟨raw, _, h⟩ := Option.bind_eq_some_iff.mp h
  obtain ⟨fields, _, h⟩ := Option.bind_eq_some_iff.mp h
  split at h
  · obtain ⟨⟨name, description⟩, _, h⟩ := Option.bind_eq_some_iff.mp h
    obtain ⟨lessons, hlessons, h⟩ := Option.bind_eq_some_iff.mp h
    obtain ⟨items, hitems, h⟩ := Option.bind_eq_some_iff.mp h
    cases h
    exact ⟨ascending_of_orElse? hlessons, ascending_of_orElse? hitems⟩
  · cases h

/-! ## The order -/

/-- The place at which a list first names a number, which is infinitely far if it never does. -/
def firstPlace (order : List Id) (id : Id) : ℕ∞ := if id ∈ order then order.idxOf id else ⊤

/-- What numbers are put in order by: the first place, and the number itself where neither is
named. -/
def standing (order : List Id) (id : Id) : ℕ∞ ×ₗ Id := toLex (firstPlace order id, id)

/-- The rank of an id is its first place in the order. -/
theorem rank_eq_idxOf (order : List Id) (id : Id) : rank order id = order.idxOf id := rfl

/-- A lower rank means an earlier place. -/
theorem firstPlace_lt {order : List Id} {a b : Id} (h : rank order a < rank order b) :
    firstPlace order a < firstPlace order b := by
  have hb : order.idxOf b ≤ order.length := List.idxOf_le_length
  have ha : a ∈ order := List.idxOf_lt_length_iff.mp (Nat.lt_of_lt_of_le h hb)
  unfold firstPlace
  rw [if_pos ha]
  split
  · exact_mod_cast h
  · exact ENat.natCast_lt_top _

/-- Ids of the same rank have the same place, or none of them has one. -/
theorem firstPlace_eq {order : List Id} {a b : Id} (h : rank order a = rank order b) :
    firstPlace order a = firstPlace order b := by
  have hmem : a ∈ order ↔ b ∈ order := by
    rw [← List.idxOf_lt_length_iff, ← List.idxOf_lt_length_iff, ← rank_eq_idxOf, ← rank_eq_idxOf, h]
  unfold firstPlace
  simp only [hmem, ← rank_eq_idxOf, h]

/-- What comes before has the lower standing. -/
theorem standing_lt_of_comesBefore {order : List Id} {a b : Id}
    (h : comesBefore (rank order a, a) (rank order b, b) = true) (hne : a ≠ b) :
    standing order a < standing order b := by
  rw [comesBefore, Bool.or_eq_true, Bool.and_eq_true, decide_eq_true_eq, decide_eq_true_eq,
    beq_iff_eq] at h
  rw [standing, standing, Prod.Lex.toLex_lt_toLex]
  rcases h with hlt | ⟨hsame, hle⟩
  · exact .inl (firstPlace_lt hlt)
  · exact .inr ⟨firstPlace_eq hsame, UInt32.lt_of_le_of_ne hle hne⟩

theorem comesBefore_trans (a b c : Nat × Id) (hab : comesBefore a b = true)
    (hbc : comesBefore b c = true) : comesBefore a c = true := by
  simp only [comesBefore, Bool.or_eq_true, Bool.and_eq_true, decide_eq_true_eq, beq_iff_eq,
    UInt32.le_iff_toNat_le] at hab hbc ⊢
  omega

/-- Of two ids one comes before the other, or they are the same. -/
theorem comesBefore_total (a b : Nat × Id) : (comesBefore a b || comesBefore b a) = true := by
  simp only [comesBefore, Bool.or_eq_true, Bool.and_eq_true, decide_eq_true_eq, beq_iff_eq,
    UInt32.le_iff_toNat_le]
  omega

/-- Putting things in order loses none. -/
theorem inOrder_perm {α : Type} (order : List Id) (idOf : α → Id) (things : List α) :
    (inOrder order idOf things).Perm things := by
  have hranked := (List.mergeSort_perm (things.map fun thing =>
    ((rank order (idOf thing), idOf thing), thing)) fun a b => comesBefore a.1 b.1).map (·.2)
  rwa [List.map_map, show (Prod.snd ∘ fun thing => ((rank order (idOf thing), idOf thing), thing))
    = id from rfl, List.map_id] at hranked

/-- **What is put in order.** Things with different numbers stand in the strict order of their
numbers. -/
theorem pairwise_inOrder {α : Type} {order : List Id} {idOf : α → Id} {things : List α}
    (hnodup : (things.map idOf).Nodup) :
    ((inOrder order idOf things).map fun thing => standing order (idOf thing)).Pairwise (· < ·) := by
  have hsorted : ((things.map fun thing => ((rank order (idOf thing), idOf thing), thing)).mergeSort
      fun a b => comesBefore a.1 b.1).Pairwise fun a b => comesBefore a.1 b.1 = true :=
    List.pairwise_mergeSort (fun a b c => comesBefore_trans a.1 b.1 c.1)
      (fun a b => comesBefore_total a.1 b.1) _
  -- What is sorted still goes with its own rank and number.
  have hranked : (inOrder order idOf things).Pairwise fun a b =>
      comesBefore (rank order (idOf a), idOf a) (rank order (idOf b), idOf b) = true := by
    refine List.pairwise_map.mpr (hsorted.imp_of_mem fun ha hb hle => ?_)
    obtain ⟨_, _, rfl⟩ := List.mem_map.mp (List.mem_mergeSort.mp ha)
    obtain ⟨_, _, rfl⟩ := List.mem_map.mp (List.mem_mergeSort.mp hb)
    exact hle
  have hdistinct : (inOrder order idOf things).Pairwise fun a b => idOf a ≠ idOf b :=
    List.pairwise_map.mp ((inOrder_perm order idOf things).map idOf |>.nodup_iff.mpr hnodup)
  refine List.pairwise_map.mpr ((hranked.and hdistinct).imp ?_)
  rintro a b ⟨hle, hne⟩
  exact standing_lt_of_comesBefore hle hne

end Export

end Syllabus
