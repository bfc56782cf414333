import Mathlib.Data.List.DropRight
import Syllabus.Proofs.Json.Strings
import Syllabus.Proofs.Table
import Syllabus.Site.Ledger

/-!
# Syllabus: reading ledgers back

The written form of a ledger is an object of two entries, the second of which is again an object
with one line for each digest. If it can be read at all, it is read as the digests that were
written; whether the instant in front of them can be read is another matter.

* **`read?_encode`**: the shape of the written form.
* **`decode?_encode`**: the ledger that is read.
-/

namespace Syllabus

namespace Json

/-! ## Shapes of entries -/

/-- A text as it is read for its shape. -/
def Raw.ofEntry (entry : String × String) : List Char × Raw :=
  (body entry.1, .string (body entry.2))

/-- One line of an object: a name, and a text behind a colon. -/
def entryLine (entry : String × String) : List Char :=
  [' ', ' ', ' ', ' '] ++ (quote entry.1).toList ++ [':', ' '] ++ (quote entry.2).toList

/-- A quoted string is read as its body. -/
theorem readValue_string (fuel : Nat) (s : String) (rest : List Char) :
    readValue (fuel + 1) (' ' :: ((quote s).toList ++ rest)) = some (.string (body s), rest) := by
  rw [quote_toList, readValue]
  have hskip : skipSpace (' ' :: ('"' :: (body s ++ ['"']) ++ rest))
      = '"' :: (body s ++ '"' :: rest) := by
    simp [skipSpace, isSpace]
  rw [hskip]
  simp [readBody_quote]

/-- An entry is read up to what follows it, which a comma or the end of the object has to be. -/
theorem readEntries_entry {fuel : Nat} {cs more rest : List Char} {name : String} {value : Raw}
    (hstart : skipSpace cs = '"' :: (body name ++ '"' :: (':' :: more)))
    (hvalue : readValue fuel more = some (value, rest)) :
    readEntries (fuel + 1) cs
      = match skipSpace rest with
        | ',' :: rest =>
          (readEntries fuel rest).map fun (entries, rest) => ((body name, value) :: entries, rest)
        | '\x7d' :: rest => some ([(body name, value)], rest)
        | _ => none := by
  rewrite [readEntries, hstart]
  show (readBody (body name ++ '"' :: (':' :: more)) >>= _) = _
  rewrite [readBody_quote]
  show (readValue fuel more >>= _) = _
  rewrite [hvalue]
  rfl

/-- The blanks in front of an entry are skipped. -/
theorem skipSpace_entryLine (entry : String × String) (rest : List Char) :
    skipSpace ('\n' :: (entryLine entry ++ rest))
      = '"' :: (body entry.1 ++ '"' :: (':' :: ' ' :: ((quote entry.2).toList ++ rest))) := by
  simp [entryLine, quote_toList, skipSpace, isSpace]

/-- Entries that are written in lines are read one after the other. -/
theorem readEntries_lines (fuel : Nat) (entry : String × String) (entries : List (String × String))
    {behind rest : List Char} (hbehind : skipSpace behind = '\x7d' :: rest) :
    readEntries (fuel + entries.length + 2)
        ('\n' :: ([',', '\n'].intercalate ((entry :: entries).map entryLine) ++ behind))
      = some ((entry :: entries).map Raw.ofEntry, rest) := by
  -- On the entries behind the first, one unit of fuel for each.
  induction entries generalizing entry with
  | nil =>
    rw [List.map_singleton, List.intercalate_singleton,
      readEntries_entry (skipSpace_entryLine entry behind) (readValue_string _ _ _), hbehind]
    rfl
  | cons next entries ih =>
    rw [List.map_cons, List.map_cons, List.intercalate_cons_cons, List.append_assoc,
      List.append_assoc, readEntries_entry (skipSpace_entryLine entry _) (readValue_string _ _ _)]
    -- A comma follows the line, so the next entry is read with one fuel less.
    have hcomma (more : List Char) : skipSpace ([',', '\n'] ++ more) = ',' :: '\n' :: more := rfl
    have hfuel : fuel + (next :: entries).length + 1 = fuel + entries.length + 2 := by
      rw [List.length_cons]
      omega
    have hrest := ih next
    rw [List.map_cons] at hrest
    rw [hcomma]
    simp only [hfuel, hrest]
    rfl

/-- Entries are written one in a line, between braces on lines of their own. -/
theorem prettyStrings_toList (entry : String × String) (entries : List (String × String)) :
    (prettyStrings 1 (entry :: entries)).toList
      = '\x7b' :: '\n' :: ([',', '\n'].intercalate ((entry :: entries).map entryLine)
        ++ ['\n', ' ', ' ', '\x7d']) := by
  have hline : (String.toList ∘ fun entry : String × String =>
      .ofList (List.replicate (2 * (1 + 1)) ' ') ++ quote entry.1 ++ ": " ++ quote entry.2)
        = entryLine := by
    funext entry
    simp [entryLine]
  rw [prettyStrings, if_neg (by simp)]
  simp only [String.toList_append, String.toList_intercalate, List.map_map, hline]
  simp

/-- Blanks in front of entries do not matter. -/
theorem readEntries_skipSpace (fuel : Nat) (cs : List Char) :
    readEntries fuel (skipSpace cs) = readEntries fuel cs := by
  cases fuel with
  | zero => rfl
  | succ fuel =>
    have htwice : skipSpace (skipSpace cs) = skipSpace cs := List.dropWhile_idempotent _ _
    rw [readEntries, readEntries, htwice]

/-- Behind the blanks of its first line an object goes on with a name. -/
theorem exists_skipSpace_lines (entry : String × String) (entries : List (String × String))
    (behind : List Char) :
    ∃ more,
      skipSpace ('\n' :: ([',', '\n'].intercalate ((entry :: entries).map entryLine) ++ behind))
        = '"' :: more := by
  cases entries with
  | nil =>
    rw [List.map_singleton, List.intercalate_singleton]
    exact ⟨_, skipSpace_entryLine entry behind⟩
  | cons next entries =>
    rw [List.map_cons, List.map_cons, List.intercalate_cons_cons, List.append_assoc,
      List.append_assoc]
    exact ⟨_, skipSpace_entryLine entry _⟩

/-- An object that starts with a line of an entry is read as its entries. -/
theorem readValue_object {fuel : Nat} {cs : List Char} {more : List Char}
    (hstart : skipSpace cs = '"' :: more) :
    readValue (fuel + 1) ('\x7b' :: cs)
      = (readEntries fuel cs).map fun (entries, rest) => (.object entries, rest) := by
  rw [readValue]
  have hbrace : skipSpace ('\x7b' :: cs) = '\x7b' :: cs := rfl
  have hentries := readEntries_skipSpace fuel cs
  rw [hstart] at hentries
  rw [hbrace]
  simp only [hstart]
  exact congrArg (Option.map _) hentries

/-- An object of texts is read as its entries. -/
theorem readValue_prettyStrings (fuel : Nat) (entries : List (String × String))
    (rest : List Char) :
    readValue (fuel + entries.length + 3) (' ' :: ((prettyStrings 1 entries).toList ++ rest))
      = some (.object (entries.map Raw.ofEntry), rest) := by
  cases entries with
  | nil =>
    have hempty : (prettyStrings 1 []).toList = ['\x7b', '\x7d'] := by decide
    rw [hempty]
    rfl
  | cons entry entries =>
    -- The blank behind the colon costs nothing: a value is read behind its blanks.
    have hspace (cs : List Char) :
        readValue (fuel + entries.length + 4) (' ' :: cs)
          = readValue (fuel + entries.length + 4) cs := by
      rw [readValue, readValue]
      rfl
    have hend : skipSpace (['\n', ' ', ' ', '\x7d'] ++ rest) = '\x7d' :: rest := rfl
    rw [prettyStrings_toList, List.length_cons]
    obtain ⟨more, hstart⟩ := exists_skipSpace_lines entry entries
      (['\n', ' ', ' ', '\x7d'] ++ rest)
    have hlines := readEntries_lines (fuel + 1) entry entries hend
    have hfuel : fuel + 1 + entries.length + 2 = fuel + entries.length + 3 := by omega
    rw [hfuel] at hlines
    rw [List.cons_append, List.cons_append, List.append_assoc]
    rw [show fuel + (entries.length + 1) + 3 = fuel + entries.length + 4 by omega, hspace,
      readValue_object hstart, hlines]
    rfl

/-- There are at least as many characters as entries. -/
theorem length_le_prettyStrings (entries : List (String × String)) :
    entries.length ≤ (prettyStrings 1 entries).toList.length := by
  -- Each line has more than one character, and that pays for its entry.
  have hlines (entries : List (String × String)) :
      entries.length ≤ ([',', '\n'].intercalate (entries.map entryLine)).length := by
    induction entries with
    | nil => exact Nat.zero_le _
    | cons entry entries ih =>
      have hline : 4 ≤ (entryLine entry).length := by
        simp only [entryLine, List.length_append, List.length_cons]
        omega
      cases entries with
      | nil =>
        rw [List.map_singleton, List.intercalate_singleton, List.length_singleton]
        omega
      | cons next entries =>
        rw [List.map_cons, List.map_cons, List.intercalate_cons_cons, List.length_append,
          List.length_append]
        rw [List.map_cons] at ih
        simp only [List.length_cons] at ih ⊢
        omega
  cases entries with
  | nil => exact Nat.zero_le _
  | cons entry entries =>
    have hentries := hlines (entry :: entries)
    rw [prettyStrings_toList]
    simp only [List.length_cons, List.length_append] at hentries ⊢
    omega

end Json

/-! ## Ledgers -/

namespace Ledger

/-- The entries of a ledger, in its shape. -/
def shape (ledger : Ledger) : Json.Raw :=
  .object [(Json.body "synced_at", .string (Json.body ledger.syncedAt.text)),
    (Json.body "files", .object (ledger.digests.map Json.Raw.ofEntry))]

/-- The text of a ledger, taken apart. -/
theorem encode_toList (ledger : Ledger) :
    ledger.encode.toList = '\x7b' :: '\n' :: ' ' :: ' ' :: '"' :: ("synced_at".toList
      ++ '"' :: ':' :: ' ' :: ((Json.quote ledger.syncedAt.text).toList
      ++ ',' :: '\n' :: ' ' :: ' ' :: '"' :: ("files".toList
      ++ '"' :: ':' :: ' ' :: ((Json.prettyStrings 1 ledger.digests).toList
      ++ ['\n', '\x7d'])))) := by
  have hsynced : "\x7b\n  \"synced_at\": ".toList
      = '\x7b' :: '\n' :: ' ' :: ' ' :: '"' :: ("synced_at".toList ++ ['"', ':', ' ']) := by
    decide
  have hfiles : ",\n  \"files\": ".toList
      = ',' :: '\n' :: ' ' :: ' ' :: '"' :: ("files".toList ++ ['"', ':', ' ']) := by
    decide
  have hend : "\n\x7d".toList = ['\n', '\x7d'] := by decide
  unfold encode
  simp only [String.toList_append, hsynced, hfiles, hend, List.append_assoc, List.cons_append,
    List.nil_append]

/-- The entry of the digests is read with the brace behind it. -/
theorem readEntries_files (ledger : Ledger) (fuel : Nat) :
    Json.readEntries (fuel + ledger.digests.length + 4)
        ('\n' :: ' ' :: ' ' :: '"' :: ("files".toList ++ '"' :: ':' :: ' ' ::
          ((Json.prettyStrings 1 ledger.digests).toList ++ ['\n', '\x7d'])))
      = some ([(Json.body "files", .object (ledger.digests.map Json.Raw.ofEntry))], []) := by
  have hname : Json.body "files" = "files".toList := by decide
  have hvalue := Json.readValue_prettyStrings fuel ledger.digests ['\n', '\x7d']
  have hstart (more : List Char) :
      Json.skipSpace ('\n' :: ' ' :: ' ' :: '"' :: ("files".toList ++ '"' :: ':' :: more))
        = '"' :: (Json.body "files" ++ '"' :: ':' :: more) := by
    rw [hname]
    rfl
  rw [Json.readEntries_entry (hstart _) hvalue]
  rfl

/-- With enough fuel the text is read as the shape of the ledger. -/
theorem readValue_encode (ledger : Ledger) (fuel : Nat) :
    Json.readValue (fuel + ledger.digests.length + 6) ledger.encode.toList
      = some (ledger.shape, []) := by
  have hname : Json.body "synced_at" = "synced_at".toList := by decide
  have hstart (more : List Char) :
      Json.skipSpace ('\n' :: ' ' :: ' ' :: '"' :: ("synced_at".toList ++ '"' :: ':' :: more))
        = '"' :: (Json.body "synced_at" ++ '"' :: ':' :: more) := by
    rw [hname]
    rfl
  have hcomma (more : List Char) : Json.skipSpace (',' :: more) = ',' :: more := rfl
  rw [encode_toList, Json.readValue_object (hstart _),
    Json.readEntries_entry (hstart _) (Json.readValue_string _ _ _), hcomma]
  simp only [readEntries_files]
  rfl

/-- The text of a ledger is long enough to pay for the fuel that reading it takes. -/
theorem length_le_encode (ledger : Ledger) :
    ledger.digests.length + 2 ≤ ledger.encode.toList.length := by
  have hdigests := Json.length_le_prettyStrings ledger.digests
  rw [encode_toList]
  simp only [List.length_cons, List.length_append]
  omega

/-- **The shape of a written ledger.** -/
theorem read?_encode (ledger : Ledger) :
    Json.Raw.read? ledger.encode.toList = some ledger.shape := by
  have hlength := ledger.length_le_encode
  -- The reader has fuel for twice the length of the text, and each entry takes one.
  have hfuel : 2 * ledger.encode.toList.length + 2
      = (2 * ledger.encode.toList.length - ledger.digests.length - 4)
        + ledger.digests.length + 6 := by
    omega
  rw [Json.Raw.read?, hfuel, readValue_encode]
  rfl

/-- The shape has an instant and the digests, and nothing else. -/
theorem fields?_shape (ledger : Ledger) :
    ledger.shape.fields? ["synced_at", "files"]
      = some [some (.string (Json.body ledger.syncedAt.text)),
        some (.object (ledger.digests.map Json.Raw.ofEntry))] := by
  simp [shape, Json.Raw.fields?, Json.decodeString_body, entriesOf?]

/-- Entries are put into the table one after the other. -/
theorem foldlM_ofEntry {set : Digests → List Char × Json.Raw → Option Digests}
    (hset : ∀ table entry,
      set table (Json.Raw.ofEntry entry) = some (Table.insert table entry.1 entry.2))
    (digests table : Digests) :
    (digests.map Json.Raw.ofEntry).foldlM set table = some (Table.insertAll table digests) := by
  induction digests generalizing table with
  | nil => rfl
  | cons entry digests ih =>
    rw [List.map_cons, List.foldlM_cons, hset]
    exact ih _

theorem digests?_ofEntry (digests : Digests) :
    digests? (.object (digests.map Json.Raw.ofEntry)) = some (Table.insertAll [] digests) := by
  -- Both texts of an entry stand for what was written, so no entry is refused.
  refine foldlM_ofEntry (fun table entry => ?_) digests []
  have hpath : Json.decodeString (Json.body entry.1) = some entry.1 :=
    Json.decodeString_body entry.1
  have hdigest : (Json.Raw.string (Json.body entry.2)).text? = some entry.2 :=
    Json.decodeString_body entry.2
  simp only [Json.Raw.ofEntry, hpath, hdigest, Option.bind_eq_bind, Option.bind_some]

/-- **Reading a written ledger.** The digests are those that were written, and all that matters is
whether the instant can be read. -/
theorem decode?_encode (now : Instant) (ledger : Ledger) :
    decode? now ledger.encode = (Instant.ofString? ledger.syncedAt.text).map fun syncedAt =>
      { syncedAt, digests := Table.insertAll [] ledger.digests } := by
  have hinstant : (Json.Raw.string (Json.body ledger.syncedAt.text)).text?
      = some ledger.syncedAt.text := Json.decodeString_body _
  unfold decode?
  rw [read?_encode, Option.bind_eq_bind, Option.bind_some, fields?_shape, Option.bind_eq_bind,
    Option.bind_some]
  show ((Json.Raw.string (Json.body ledger.syncedAt.text)).text? >>= Instant.ofString?) >>= _ = _
  rw [hinstant]
  simp only [Option.bind_eq_bind, Option.bind_some]
  -- Only the instant may fail to be read.
  cases Instant.ofString? ledger.syncedAt.text with
  | none => rfl
  | some syncedAt =>
    have hdigests : orElse? [] digests? (some (.object (ledger.digests.map Json.Raw.ofEntry)))
        = some (Table.insertAll [] ledger.digests) := digests?_ofEntry ledger.digests
    rw [hdigests]
    rfl

/-- Where the ledger is read back its digests are. -/
theorem digests_of_decode?_encode {ledger found : Ledger} {now : Instant}
    (h : decode? now ledger.encode = some found) :
    found.digests = Table.insertAll [] ledger.digests := by
  rw [decode?_encode] at h
  obtain ⟨syncedAt, _, hfound⟩ := Option.map_eq_some_iff.mp h
  rw [← hfound]

end Ledger

end Syllabus
