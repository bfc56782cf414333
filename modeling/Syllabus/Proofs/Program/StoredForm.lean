import Syllabus.Program.Stored
import Syllabus.Proofs.DateText
import Syllabus.Proofs.Table

/-!
# Syllabus: the stored form is lossless

A datum is read back if each scalar can still be read as what it was written for, and lists and
records have the items and entries that they had. From what is read back of the datum of a program
the program is read again: what was absent is absent, what was empty is empty, and the stages of a
level survive as a text.

* **`Datum.readsAs`**: what reading a datum back has to keep.
* **`Datum.fields?_of_readsAs`**: the entries of a record.
* **`lossless_program`**: programs.
-/

namespace Syllabus

/-! ## Data that are read back -/

/-- Whether a scalar can be read as what another one was written for. -/
def Scalar.readsAs (written found : Scalar) : Bool :=
  (written.text?.isNone || found.text? == written.text?)
    && (written.number?.isNone || found.number? == written.number?)
    && found.presence == written.presence

namespace Datum

mutual

/-- Whether a datum is what can be read where another one was written. -/
def readsAs : Datum → Datum → Bool
  | .scalar written, .scalar found => written.readsAs found
  | .list items _, .list found _ => itemsReadAs items found
  | .record entries, .record found => entriesReadAs entries found
  | .other, .other => true
  | _, _ => false

def itemsReadAs : List Datum → List Datum → Bool
  | [], [] => true
  | item :: items, first :: found => item.readsAs first && itemsReadAs items found
  | _, _ => false

def entriesReadAs : List (String × Datum) → List (String × Datum) → Bool
  | [], [] => true
  | (name, value) :: entries, (key, first) :: found =>
    name == key && value.readsAs first && entriesReadAs entries found
  | _, _ => false

end

mutual

/-- Every datum is what was written where it was written. -/
theorem readsAs_refl (datum : Datum) : datum.readsAs datum = true := by
  cases datum with
  | scalar value => simp [readsAs, Scalar.readsAs]
  | list items positional => exact itemsReadAs_refl items
  | record entries => exact entriesReadAs_refl entries
  | other => rfl

theorem itemsReadAs_refl (items : List Datum) : itemsReadAs items items = true := by
  cases items with
  | nil => rfl
  | cons item items => rw [itemsReadAs, readsAs_refl item, itemsReadAs_refl items]; rfl

theorem entriesReadAs_refl (entries : List (String × Datum)) :
    entriesReadAs entries entries = true := by
  cases entries with
  | nil => rfl
  | cons entry entries =>
    rw [entriesReadAs, readsAs_refl entry.2, entriesReadAs_refl entries]
    simp

end

section Inversion

variable {found : Datum}

/-- What a text is read back as has this text. -/
theorem exists_of_readsAs_ofText {text : String} (h : (ofText text).readsAs found = true) :
    ∃ value, found = .scalar value ∧ value.text? = some text ∧ value.presence = .present := by
  -- Nothing but a scalar is read back of a scalar.
  cases found with
  | scalar value => exact ⟨value, rfl, by simpa [ofText, readsAs, Scalar.readsAs] using h⟩
  | list | record | other => cases h

/-- What a number is read back as has this number. -/
theorem exists_of_readsAs_ofNat {n : Nat} (h : (ofNat n).readsAs found = true) :
    ∃ value, found = .scalar value ∧ value.number? = some n := by
  cases found with
  | scalar value =>
    have hvalue : value.number? = some n ∧ value.presence = .present := by
      simpa [ofNat, readsAs, Scalar.readsAs] using h
    exact ⟨value, rfl, hvalue.1⟩
  | list | record | other => cases h

/-- A list is read back as a list of as many items. -/
theorem exists_of_readsAs_list {items : List Datum} {positional : Bool}
    (h : (list items positional).readsAs found = true) :
    ∃ others positional', found = .list others positional' ∧ itemsReadAs items others = true := by
  cases found with
  | list others positional' => exact ⟨others, positional', rfl, h⟩
  | scalar | record | other => cases h

theorem exists_of_readsAs_record {entries : List (String × Datum)}
    (h : (record entries).readsAs found = true) :
    ∃ others, found = .record others ∧ entriesReadAs entries others = true := by
  cases found with
  | record others => exact ⟨others, rfl, h⟩
  | scalar | list | other => cases h

/-- The first entry is read back under its name, and the others behind it. -/
theorem exists_of_entriesReadAs_cons {entry : String × Datum}
    {entries found : List (String × Datum)}
    (h : entriesReadAs (entry :: entries) found = true) :
    ∃ datum others, found = (entry.1, datum) :: others ∧ entry.2.readsAs datum = true
      ∧ entriesReadAs entries others = true := by
  cases found with
  | nil => cases h
  | cons first others =>
    obtain ⟨⟨hname, hentry⟩, hentries⟩ : (entry.1 = first.1 ∧ entry.2.readsAs first.2 = true)
        ∧ entriesReadAs entries others = true := by simpa [entriesReadAs] using h
    exact ⟨first.2, others, by rw [hname], hentry, hentries⟩

end Inversion

/-! ## Entries of records -/

/-- Whether an entry is read back, or is absent as it was. -/
abbrev Kept (written found : Option Datum) : Prop :=
  Option.Rel (fun datum first => datum.readsAs first = true) written found

/-- What is under a name is read back under it. -/
theorem kept_find? {entries found : List (String × Datum)}
    (h : entriesReadAs entries found = true) (name : String) :
    Kept (Table.find? entries name) (Table.find? found name) := by
  -- On the entries, which are read back one by one and in order.
  induction entries generalizing found with
  | nil =>
    cases found with
    | nil => exact .none
    | cons entry found => cases h
  | cons entry entries ih =>
    obtain ⟨datum, others, rfl, hentry, hentries⟩ := exists_of_entriesReadAs_cons h
    rw [Table.find?, Table.find?]
    split
    · exact .some hentry
    · exact ih hentries

/-- The names of entries are read back as they are. -/
theorem names_of_readsAs {entries found : List (String × Datum)}
    (h : entriesReadAs entries found = true) : Table.names found = Table.names entries := by
  induction entries generalizing found with
  | nil =>
    cases found with
    | nil => rfl
    | cons entry found => cases h
  | cons entry entries ih =>
    obtain ⟨datum, others, rfl, _, hentries⟩ := exists_of_entriesReadAs_cons h
    have hrest : others.map (·.1) = entries.map (·.1) := ih hentries
    rw [Table.names, Table.names, List.map_cons, List.map_cons, hrest]

/-- Of different names, each has its own entry at most. -/
theorem filter_of_nodup {entries : List (String × Datum)} (hnodup : (Table.names entries).Nodup)
    (name : String) :
    entries.filter (fun (key, _) => key = name)
      = ((Table.find? entries name).map fun datum => (name, datum)).toList := by
  induction entries with
  | nil => rfl
  | cons entry entries ih =>
    obtain ⟨key, datum⟩ := entry
    rw [Table.names, List.map_cons, List.nodup_cons] at hnodup
    rw [List.filter_cons, ih hnodup.2, Table.find?]
    by_cases hname : key = name
    · subst hname
      -- The first entry of the name is the only one: the others are none of it.
      have hnone : Table.find? entries key = none := Table.find?_eq_none hnodup.1
      simp [hnone]
    · simp [hname]

/-- Entries of different names are found under the declared ones. -/
theorem entriesOf?_of_nodup {entries : List (String × Datum)}
    (hnodup : (Table.names entries).Nodup) (declared : List String) :
    entriesOf? declared entries = some (declared.map (Table.find? entries)) := by
  unfold entriesOf?
  -- On the declared names, each of which has one entry or none.
  induction declared with
  | nil => rfl
  | cons name declared ih =>
    rw [List.mapM_cons, ih, filter_of_nodup hnodup, List.map_cons]
    cases Table.find? entries name with
    | none => rfl
    | some datum => rfl

/-- The entries that there are of declared ones. -/
def present (fields : List (String × Option Datum)) : List (String × Datum) :=
  fields.flatMap fun field => (field.2.map fun datum => (field.1, datum)).toList

/-- An optional text has an entry if it is there. -/
theorem optionalEntry_eq (name : String) (text : Option String) :
    optionalEntry name text = ((text.map ofText).map fun datum => (name, datum)).toList := by
  cases text with
  | none => rfl
  | some text => rfl

/-- The entries that are there have their names in order. -/
theorem names_present (fields : List (String × Option Datum)) :
    (Table.names (present fields)).Sublist (fields.map (·.1)) := by
  induction fields with
  | nil => exact .slnil
  | cons field fields ih =>
    obtain ⟨name, entry⟩ := field
    cases entry with
    | none => exact ih.cons name
    | some datum => exact ih.cons_cons name

/-- Under the name of a field is its entry, if it has one. -/
theorem find?_present {fields : List (String × Option Datum)} (hnodup : (fields.map (·.1)).Nodup)
    {field : String × Option Datum} (hfield : field ∈ fields) :
    Table.find? (present fields) field.1 = field.2 := by
  -- On the fields: the names are different, so each passes over the others.
  induction fields with
  | nil => cases hfield
  | cons first fields ih =>
    obtain ⟨name, entry⟩ := first
    rw [List.map_cons, List.nodup_cons] at hnodup
    rcases List.mem_cons.mp hfield with rfl | hmem
    · cases entry with
      | none =>
        exact Table.find?_eq_none fun hname => hnodup.1 ((names_present fields).subset hname)
      | some datum => exact if_pos rfl
    · have hname : field.1 ∈ fields.map (·.1) := List.mem_map_of_mem hmem
      have hother : name ≠ field.1 := by
        intro hsame
        exact hnodup.1 (hsame ▸ hname)
      cases entry with
      | none => exact ih hnodup.2 hmem
      | some datum => exact (if_neg hother).trans (ih hnodup.2 hmem)

/-- **Entries.** A record is read back entry by entry. -/
theorem fields?_of_readsAs {fields : List (String × Option Datum)} {found : Datum}
    (h : (record (present fields)).readsAs found = true) (names : List String)
    (hfields : fields.map (·.1) = names) (hnodup : names.Nodup) :
    ∃ entry : String → Option Datum, found.fields? names = some (names.map entry)
      ∧ ∀ field ∈ fields, Kept field.2 (entry field.1) := by
  obtain ⟨others, rfl, hentries⟩ := exists_of_readsAs_record h
  rw [← hfields] at hnodup
  -- The names read back are those written, and the written ones are some of the declared ones.
  have hothers : (Table.names others).Nodup := by
    rw [names_of_readsAs hentries]
    exact hnodup.sublist (names_present fields)
  refine ⟨Table.find? others, entriesOf?_of_nodup hothers names, fun field hfield => ?_⟩
  -- What was written under the name of a field is the field itself.
  have hkept := kept_find? hentries field.1
  rwa [find?_present hnodup hfield] at hkept

end Datum

open Datum

/-! ## Lossless notations -/

/-- Whether a value is read from whatever is read back of its datum. -/
def Lossless {α : Type} (write : α → Datum) (read : Datum → Option α) : Prop :=
  ∀ value found, (write value).readsAs found = true → read found = some value

namespace Lossless

variable {α : Type} {write : α → Datum} {read : Datum → Option α} {value : α}
  {entry : Option Datum}

theorem required? (h : Lossless write read) (hentry : Kept (some (write value)) entry) :
    required? read entry = some value := by
  cases hentry with
  | some hfound => exact h _ _ hfound

theorem orElse? (h : Lossless write read) (hentry : Kept (some (write value)) entry)
    (default : α) : orElse? default read entry = some value := by
  cases hentry with
  | some hfound => exact h _ _ hfound

/-- What is written as a text is never taken for absent. -/
theorem optional? {text : α → String} (h : Lossless (fun value => ofText (text value)) read)
    {value : Option α} (hentry : Kept (value.map fun value => ofText (text value)) entry) :
    Syllabus.orElse? none (Datum.optional? read) entry = some value := by
  cases value with
  | none =>
    cases hentry with
    | none => rfl
  | some value =>
    cases hentry with
    | some hfound =>
      have hread := h _ _ hfound
      obtain ⟨scalar, rfl, _, hpresent⟩ := exists_of_readsAs_ofText hfound
      -- It is read as present, so that it is read at all.
      show Datum.optional? read (.scalar scalar) = some (some value)
      rw [Datum.optional?, hpresent, hread]
      rfl

/-- Lists of what is lossless are lossless. -/
theorem list (h : Lossless write read) (positional : Bool) :
    Lossless (fun items => .list (items.map write) positional) (Datum.list? read) := by
  intro items found hfound
  obtain ⟨others, _, rfl, hitems⟩ := exists_of_readsAs_list hfound
  show others.mapM read = some items
  clear hfound
  -- On the items, which are read back one by one.
  induction items generalizing others with
  | nil =>
    cases others with
    | nil => rfl
    | cons first others => cases hitems
  | cons item items ih =>
    cases others with
    | nil => cases hitems
    | cons first others =>
      have hboth : (write item).readsAs first = true
          ∧ itemsReadAs (items.map write) others = true := by
        simpa [itemsReadAs] using hitems
      rw [List.mapM_cons, h _ _ hboth.1, ih _ hboth.2]
      rfl

end Lossless

theorem lossless_text : Lossless ofText Datum.text? := by
  intro text found hfound
  obtain ⟨scalar, rfl, htext, _⟩ := exists_of_readsAs_ofText hfound
  exact htext

/-- Numbers of a machine word are lossless. -/
theorem lossless_word : Lossless (fun id : Id => ofNat id.toNat) Datum.word? := by
  intro id found hfound
  obtain ⟨scalar, rfl, hnumber⟩ := exists_of_readsAs_ofNat hfound
  rw [Datum.word?, hnumber]
  show (if id.toNat < 2 ^ 32 then some (UInt32.ofNat id.toNat) else none) = some id
  -- A word of 32 bits is below the bound that is asked for.
  rw [if_pos id.toNat_lt, UInt32.ofNat_toNat]

theorem lossless_date : Lossless (fun date => ofText (Date.text date)) Date.ofDatum? := by
  intro date found hfound
  rw [Date.ofDatum?, lossless_text _ _ hfound]
  exact Date.ofString?_text date

/-- Each of the eight levels is read back from its text. -/
theorem Level.ofString_text (level : Level) :
    (Level.ofString level.text).toOption = some level := by
  obtain ⟨beginner, intermediate, advanced⟩ := level
  cases beginner <;> cases intermediate <;> cases advanced <;> decide

theorem lossless_level : Lossless (fun level => ofText (Level.text level)) Level.ofDatum? := by
  intro level found hfound
  rw [Level.ofDatum?, lossless_text _ _ hfound]
  exact Level.ofString_text level

/-! ## Programs -/

/-- A page as a record of the fields it has. -/
theorem Page.toDatum_eq (page : Page) :
    page.toDatum = .record (present [("id", some (ofNat page.id.toNat)),
      ("name", page.name.map fun name => ofText name),
      ("last_update", page.lastUpdate.map fun date => ofText date.text),
      ("rule", page.rule.map fun rule => ofText rule)]) := by
  simp [toDatum, optionalEntry_eq, present, Function.comp_def]

/-- Pages are lossless. -/
theorem lossless_page : Lossless Page.toDatum Page.ofDatum? := by
  intro page found hfound
  rw [Page.toDatum_eq] at hfound
  obtain ⟨entry, hfields, hkept⟩ := fields?_of_readsAs hfound
    ["id", "name", "last_update", "rule"] rfl (by decide)
  -- One fact for each field: under its name is what reads as it.
  simp only [List.forall_mem_cons] at hkept
  obtain ⟨hid, hname, hlastUpdate, hrule, _⟩ := hkept
  rw [Page.ofDatum?, hfields]
  simp only [List.map_cons, List.map_nil, Option.bind_eq_bind, Option.bind_some,
    lossless_word.required? hid, lossless_text.optional? hname, lossless_date.optional? hlastUpdate,
    lossless_text.optional? hrule]

/-- A lesson as a record of the fields it has. -/
theorem Lesson.toDatum_eq (lesson : Lesson) :
    lesson.toDatum = .record (present [("id", some (ofNat lesson.id.toNat)),
      ("name", some (ofText lesson.name)),
      ("description", lesson.description.map fun description => ofText description),
      ("pages", some (.list (lesson.pages.map Page.toDatum) false))]) := by
  simp [toDatum, optionalEntry_eq, present, Function.comp_def]

/-- Lessons are lossless. -/
theorem lossless_lesson : Lossless Lesson.toDatum Lesson.ofDatum? := by
  intro lesson found hfound
  rw [Lesson.toDatum_eq] at hfound
  obtain ⟨entry, hfields, hkept⟩ := fields?_of_readsAs hfound
    ["id", "name", "description", "pages"] rfl (by decide)
  simp only [List.forall_mem_cons] at hkept
  obtain ⟨hid, hname, hdescription, hpages, _⟩ := hkept
  rw [Lesson.ofDatum?, hfields]
  simp only [List.map_cons, List.map_nil, Option.bind_eq_bind, Option.bind_some,
    lossless_word.required? hid, lossless_text.required? hname,
    lossless_text.optional? hdescription, (lossless_page.list false).orElse? hpages]

/-- A course as a record of the fields it has. -/
theorem Course.toDatum_eq (course : Course) :
    course.toDatum = .record (present [("id", some (ofNat course.id.toNat)),
      ("file_name", course.fileName.map fun fileName => ofText fileName),
      ("name", some (ofText course.name)),
      ("description", course.description.map fun description => ofText description),
      ("level", some (ofText course.level.text)),
      ("pic_file", course.picture.map fun picture => ofText picture),
      ("lessons", some (.list (course.lessons.map Lesson.toDatum) false))]) := by
  simp [toDatum, optionalEntry_eq, present, Function.comp_def]

/-- Courses are lossless. -/
theorem lossless_course : Lossless Course.toDatum Course.ofDatum? := by
  intro course found hfound
  rw [Course.toDatum_eq] at hfound
  obtain ⟨entry, hfields, hkept⟩ := fields?_of_readsAs hfound
    ["id", "file_name", "name", "description", "level", "pic_file", "lessons"] rfl (by decide)
  simp only [List.forall_mem_cons] at hkept
  obtain ⟨hid, hfileName, hname, hdescription, hlevel, hpicture, hlessons, _⟩ := hkept
  rw [Course.ofDatum?, hfields]
  -- Every course is written with its number, level and lessons, so no default is taken.
  simp only [List.map_cons, List.map_nil, Option.bind_eq_bind, Option.bind_some,
    lossless_word.orElse? hid, lossless_text.optional? hfileName, lossless_text.required? hname,
    lossless_text.optional? hdescription, lossless_level.orElse? hlevel,
    lossless_text.optional? hpicture, (lossless_lesson.list false).orElse? hlessons]

/-- A program as a record of the fields it has. -/
theorem Program.toDatum_eq (program : Program) :
    program.toDatum = .record (present [("name", some (ofText program.name)),
      ("type", program.kind.map fun kind => ofText kind),
      ("author", program.author.map fun author => ofText author),
      ("level", some (ofText program.level.text)),
      ("description", program.description.map fun description => ofText description),
      ("icon_file", program.icon.map fun icon => ofText icon),
      ("cover_file", program.cover.map fun cover => ofText cover),
      ("courses", some (.list (program.courses.map Course.toDatum) false))]) := by
  simp [toDatum, optionalEntry_eq, present, Function.comp_def]

/-- **Programs.** What is read back of the datum of a program is the datum of that program. -/
theorem lossless_program : Lossless Program.toDatum Program.ofDatum? := by
  intro program found hfound
  rw [Program.toDatum_eq] at hfound
  obtain ⟨entry, hfields, hkept⟩ := fields?_of_readsAs hfound
    ["name", "type", "author", "level", "description", "icon_file", "cover_file", "courses"] rfl
    (by decide)
  simp only [List.forall_mem_cons] at hkept
  obtain ⟨hname, hkind, hauthor, hlevel, hdescription, hicon, hcover, hcourses, _⟩ := hkept
  rw [Program.ofDatum?, hfields]
  simp only [List.map_cons, List.map_nil, Option.bind_eq_bind, Option.bind_some,
    lossless_text.required? hname, lossless_text.optional? hkind, lossless_text.optional? hauthor,
    lossless_level.orElse? hlevel, lossless_text.optional? hdescription,
    lossless_text.optional? hicon, lossless_text.optional? hcover,
    (lossless_course.list false).orElse? hcourses]

end Syllabus
