import Syllabus.Proofs.Site.KeptDigests

/-!
# Syllabus: the line ends of written pages

A page is written with each pair of a carriage return and a line feed replaced by a line feed. What
is put in the place of a pair may stand behind another carriage return, and then is in a pair again:
of any number of carriage returns in front of a line feed, one goes. So the text that is written has
pairs left if two carriage returns stood in front of a line feed, and only then; and only then does
writing the text back change it once more.

* **`hasBreak_unifyLineEnds_iff`**: every break loses one carriage return.
* **`unifyLineEnds_eq_self_iff`**: the texts without pairs are those that stay as they are.
* **`lineEnds_of_written`**: what has been written, and what comes of writing it back.
-/

namespace Syllabus.Site

open FileTree FileAction

/-! ## Line breaks -/

/-- Whether somewhere in a text so many carriage returns stand in front of a line feed. -/
def HasBreak (returns : Nat) (cs : List Char) : Prop :=
  List.replicate returns '\r' ++ ['\n'] <:+: cs

instance (returns : Nat) (cs : List Char) : Decidable (HasBreak returns cs) :=
  inferInstanceAs (Decidable (_ <:+: _))

/-- A line feed comes first if it did so before, or stood second in a pair. -/
theorem lineFeed_prefix_unifyLineEnds_iff (cs : List Char) :
    ['\n'] <+: unifyLineEnds cs ↔ ['\n'] <+: cs ∨ ['\r', '\n'] <+: cs := by
  fun_cases unifyLineEnds cs with
  | case1 rest => simp
  | case2 first rest hpair =>
    have hnone : ¬ ['\r', '\n'] <+: first :: rest := by
      rintro ⟨behind, hbehind⟩
      cases hbehind
      exact hpair behind rfl rfl
    simp [hnone]
  | case3 => simp

/-- At the start of a text, a break loses one carriage return. -/
theorem break_prefix_unifyLineEnds_iff (returns : Nat) (cs : List Char) :
    List.replicate (returns + 1) '\r' ++ ['\n'] <+: unifyLineEnds cs
      ↔ List.replicate (returns + 2) '\r' ++ ['\n'] <+: cs := by
  induction returns generalizing cs with
  | zero =>
    fun_cases unifyLineEnds cs with
    | case1 rest => simp
    | case2 first rest hpair =>
      -- The line feed behind the first character is not the second of a pair with it.
      have hrest (hfirst : first = '\r') : ¬ ['\n'] <+: rest := by
        rintro ⟨behind, rfl⟩
        exact hpair behind hfirst rfl
      simp only [List.replicate_succ, List.replicate_zero, List.cons_append, List.nil_append,
        List.cons_prefix_cons, lineFeed_prefix_unifyLineEnds_iff]
      grind
    | case3 => simp
  | succ returns ih =>
    fun_cases unifyLineEnds cs with
    | case1 rest => simp [List.replicate_succ]
    | case2 first rest hpair =>
      have hmore (count : Nat) : List.replicate (count + 1) '\r' ++ ['\n']
          = '\r' :: (List.replicate count '\r' ++ ['\n']) := rfl
      rw [hmore (returns + 1), hmore (returns + 2), List.cons_prefix_cons, List.cons_prefix_cons, ih]
    | case3 => simp

/-- **Every break loses one carriage return.** -/
theorem hasBreak_unifyLineEnds_iff (returns : Nat) (cs : List Char) :
    HasBreak (returns + 1) (unifyLineEnds cs) ↔ HasBreak (returns + 2) cs := by
  unfold HasBreak
  fun_induction unifyLineEnds cs with
  | case1 rest ih =>
    -- A pair is no longer break itself, and no break starts at its line feed.
    rw [List.infix_cons_iff, List.infix_cons_iff, List.infix_cons_iff, ih]
    simp [List.replicate_succ]
  | case2 first rest hpair ih =>
    have hstart := break_prefix_unifyLineEnds_iff returns (first :: rest)
    rw [unifyLineEnds.eq_2 first rest hpair] at hstart
    rw [List.infix_cons_iff, List.infix_cons_iff, hstart, ih]
  | case3 => simp

theorem unifyLineEnds_of_not_hasBreak {cs : List Char} (h : ¬ HasBreak 1 cs) :
    unifyLineEnds cs = cs := by
  fun_induction unifyLineEnds cs with
  | case1 rest => exact absurd ⟨[], rest, rfl⟩ h
  | case2 first rest _ ih =>
    rw [ih fun hrest => h (hrest.trans (List.suffix_cons first rest).isInfix)]
  | case3 => rfl

/-- **The texts without pairs are those that stay as they are.** -/
theorem unifyLineEnds_eq_self_iff (cs : List Char) :
    unifyLineEnds cs = cs ↔ ¬ HasBreak 1 cs := by
  refine ⟨fun hsame hbreak => ?_, unifyLineEnds_of_not_hasBreak⟩
  -- A text that stays as it is would have breaks of any length.
  have hlonger (returns : Nat) : HasBreak (returns + 1) cs := by
    induction returns with
    | zero => exact hbreak
    | succ returns ih =>
      rw [← hsame] at ih
      exact (hasBreak_unifyLineEnds_iff returns cs).mp ih
  have hlength := (hlonger cs.length).length_le
  rw [List.length_append, List.length_replicate, List.length_singleton] at hlength
  omega

/-! ## Pages -/

theorem hasBreak_pageText_iff (returns : Nat) (content : String) :
    HasBreak (returns + 1) (pageText content).toList ↔ HasBreak (returns + 2) content.toList := by
  rw [pageText, String.toList_ofList]
  exact hasBreak_unifyLineEnds_iff returns content.toList

/-- A page that has been written is taken for written only if its text has no pairs left. -/
theorem pageText_pageText_iff (content : String) :
    pageText (pageText content) = pageText content ↔ ¬ HasBreak 2 content.toList := by
  rw [← hasBreak_pageText_iff 0, ← unifyLineEnds_eq_self_iff, ← String.toList_inj]
  conv_lhs => rw [pageText, String.toList_ofList]

section Written

variable {path : Path} {content : String} {digests digests' : Digests} {dryRun : Bool}
  {tree later : FileTree}

/-- The text of a page that has been written is current if writing it makes no other text of it. -/
theorem isCurrent_of_written
    (h : writePage path content digests dryRun tree = .ok (⟨.written, path⟩, digests') later)
    (hsame : pageText (pageText content) = pageText content) :
    IsCurrent path (pageText content) digests' later := by
  cases writePage_ok h with
  | written _ hholds =>
    refine ⟨?_, hholds.contains⟩
    rw [Table.find?_insert, if_pos rfl, pageDigest, pageDigest, hsame]

/-- If it does, and the digests of the two differ, the text is not current. -/
theorem not_isCurrent_of_written
    (h : writePage path content digests dryRun tree = .ok (⟨.written, path⟩, digests') later)
    (hother : pageDigest (pageText content) ≠ pageDigest content) :
    ¬ IsCurrent path (pageText content) digests' later := by
  cases writePage_ok h with
  | written =>
    rintro ⟨hdigest, _⟩
    rw [Table.find?_insert, if_pos rfl, Option.some.injEq] at hdigest
    exact hother hdigest.symm

/-- **Writing back.** The file of a page that has been written holds the text with one carriage
return less in every break. So it has a pair of a carriage return and a line feed just if two
carriage returns stood in front of a line feed. If there was no such break, writing the text of the
file back finds the page unchanged; if there was one, it does not, unless the digests of the two
texts are the same. -/
theorem lineEnds_of_written
    (h : writePage path content digests dryRun tree = .ok (⟨.written, path⟩, digests') later) :
    ∃ text, later.readText path = .ok text
      ∧ (∀ returns, HasBreak (returns + 1) text.toList ↔ HasBreak (returns + 2) content.toList)
      ∧ (¬ HasBreak 2 content.toList → ∀ again,
        writePage path text digests' again later = .ok (⟨.unchanged, path⟩, digests') later)
      ∧ (HasBreak 2 content.toList → ToldApart [(path, content), (path, text)] →
        ∀ again write digests'' last,
          writePage path text digests' again later = .ok (write, digests'') last →
          write.outcome ≠ .unchanged) := by
  have hreads : later.readText path = .ok (pageText content) := by
    cases writePage_ok h with
    | written _ hholds => exact hholds.readText
  refine ⟨pageText content, hreads, fun returns => hasBreak_pageText_iff returns content,
    fun hfree again => ?_, fun hbreak htold again write digests'' last hwrite hunchanged => ?_⟩
  · have hcurrent := isCurrent_of_written h ((pageText_pageText_iff content).mpr hfree)
    rw [writePage_eq, if_pos hcurrent]
  · have hother : pageDigest (pageText content) ≠ pageDigest content := by
      intro hsame
      have htext := htold (path, pageText content) (by simp) (path, content) (by simp) hsame
      exact (pageText_pageText_iff content).mp htext hbreak
    have houtcome := pageOutcome path (pageText content) digests' again later
    rw [hwrite] at houtcome
    cases houtcome with
    | unchanged hcurrent => exact not_isCurrent_of_written h hother hcurrent
    | wouldWrite | written => cases hunchanged

end Written

namespace TwoReturns

/-! The doubled text has a line feed with two carriage returns in front of it. In the single one
every line feed has one or none. -/

def start : FileTree := {}

def page : Path := ⟨"page"⟩

def doubled : String := "\r\r\n"

def single : String := "one\r\ntwo\n"

/-- What is left when a text has been written where there was nothing. -/
@[irreducible] def left (text : String) : FileTree := after (writePage page text [] false) start

/-- The digests that are kept then. -/
def kept (text : String) : Digests := [(page.text, pageDigest text)]

theorem of_texts : ¬ HasBreak 2 single.toList ∧ HasBreak 2 doubled.toList
    ∧ HasBreak 1 "\r\n".toList ∧ ToldApart [(page, doubled), (page, "\r\n")] := by
  unfold ToldApart
  decide +kernel

theorem of_writes :
    valueOf (writePage page doubled [] false start) = some (⟨.written, page⟩, kept doubled)
    ∧ (left doubled).readText page = .ok "\r\n"
    ∧ valueOf (writePage page single [] false start) = some (⟨.written, page⟩, kept single)
    ∧ (left single).readText page = .ok "one\ntwo\n"
    ∧ valueOf (writePage page "\r\n" (kept doubled) false (left doubled))
      = some (⟨.written, page⟩, [(page.text, pageDigest "\r\n")])
    ∧ (after (writePage page "\r\n" (kept doubled) false) (left doubled)).readText page
      = .ok "\n" := by
  decide +kernel

/-- A text that has been written has left the tree of its name. -/
theorem written_of_valueOf {text : String}
    (h : valueOf (writePage page text [] false start) = some (⟨.written, page⟩, kept text)) :
    writePage page text [] false start = .ok (⟨.written, page⟩, kept text) (left text) := by
  unfold left
  exact eq_ok_of_valueOf h

/-- The page of the single text is unchanged when the text of its file is written back. That of the
doubled text is not. -/
theorem lineEnds_singleAndDoubled :
    (writePage page single [] false start = .ok (⟨.written, page⟩, kept single) (left single)
      ∧ ¬ HasBreak 2 single.toList
      ∧ writePage page "one\ntwo\n" (kept single) false (left single)
        = .ok (⟨.unchanged, page⟩, kept single) (left single))
    ∧ (writePage page doubled [] false start = .ok (⟨.written, page⟩, kept doubled) (left doubled)
      ∧ HasBreak 2 doubled.toList ∧ ToldApart [(page, doubled), (page, "\r\n")]
      ∧ HasBreak 1 "\r\n".toList
      ∧ ∀ write digests last,
        writePage page "\r\n" (kept doubled) false (left doubled) = .ok (write, digests) last →
        write.outcome ≠ .unchanged) := by
  obtain ⟨hvalueDoubled, hreadDoubled, hvalueSingle, hreadSingle, _⟩ := of_writes
  have hsingle := written_of_valueOf hvalueSingle
  have hdoubled := written_of_valueOf hvalueDoubled
  obtain ⟨text, hread, _, hunchanged, _⟩ := lineEnds_of_written hsingle
  obtain ⟨text', hread', hbreaks, _, hchanged⟩ := lineEnds_of_written hdoubled
  rw [hreadSingle, Except.ok.injEq] at hread
  rw [hreadDoubled, Except.ok.injEq] at hread'
  subst hread hread'
  obtain ⟨hfree, hbreak, _, htold⟩ := of_texts
  exact ⟨⟨hsingle, hfree, hunchanged hfree false⟩, hdoubled, hbreak, htold,
    (hbreaks 0).mpr hbreak, hchanged hbreak htold false⟩

/-- The file of the doubled text has a pair left. Writing its text back does not find the page
unchanged, but writes another text. -/
theorem pair_left : writePage page doubled [] false start
      = .ok (⟨.written, page⟩, kept doubled) (left doubled)
    ∧ (left doubled).readText page = .ok "\r\n"
    ∧ HasBreak 1 "\r\n".toList
    ∧ ∃ last, writePage page "\r\n" (kept doubled) false (left doubled)
        = .ok (⟨.written, page⟩, [(page.text, pageDigest "\r\n")]) last
      ∧ last.readText page = .ok "\n" := by
  obtain ⟨hwrite, hread, _, _, hagain, hleft⟩ := of_writes
  exact ⟨written_of_valueOf hwrite, hread, of_texts.2.2.1, _, eq_ok_of_valueOf hagain, hleft⟩

end TwoReturns

end Syllabus.Site
