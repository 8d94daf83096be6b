import Tabular.Proofs.Composition
import Tabular.Proofs.Trim

/-! # Statements of a script

A script is cut at its delimiters and line feeds into segments and a tail. Its statements
are the segments, each with a delimiter behind it, and the tail as well if there is more to
it than white space. Nothing of the segments is lost, and nothing but delimiters is added:
statements put together are a script with the same statements.
-/

namespace Tabular.Script

variable {text other tail last : List Char} {segments others : List (List Char)} {cut : Char}

/-- The segments of a text, each ended by a terminator, and the tail behind the last one. -/
inductive Segments : List Char → List (List Char) → List Char → Prop
  | tail {text : List Char} (huncut : Uncut text) : Segments text [] text
  | cons {segment rest tail : List Char} {segments : List (List Char)} {cut : Char}
    (huncut : Uncut segment) (hcut : cut = ';' ∨ cut = '\n') (hrest : Segments rest segments tail) :
    Segments (segment ++ cut :: rest) (segment :: segments) tail

theorem isTerminator_iff : isTerminator cut = true ↔ cut = ';' ∨ cut = '\n' := by
  rw [isTerminator, Bool.or_eq_true, beq_iff_eq, beq_iff_eq, delimiter]

theorem uncut_nil : Uncut [] :=
  List.forall_mem_nil _

theorem Segments.splitOnP_eq (hsegments : Segments text segments tail) :
    text.splitOnP isTerminator = segments ++ [tail] := by
  induction hsegments with
  | tail huncut => exact List.splitOnP_eq_singleton huncut
  | cons huncut hcut hrest ih =>
      rw [List.splitOnP_append_cons_of_forall_mem huncut _ (isTerminator_iff.mpr hcut), ih]
      rfl

/-- A text has no other segments and no other tail than it has. -/
theorem Segments.unique (hsegments : Segments text segments tail)
    (hothers : Segments text others last) : others = segments ∧ last = tail := by
  have hsplit := hothers.splitOnP_eq
  rw [hsegments.splitOnP_eq] at hsplit
  obtain ⟨hinit, hlast⟩ := List.append_inj' hsplit rfl
  exact ⟨hinit.symm, (List.singleton_inj.mp hlast).symm⟩

theorem exists_segments (text : List Char) : ∃ segments tail, Segments text segments tail := by
  induction text with
  | nil => exact ⟨[], [], .tail uncut_nil⟩
  | cons c rest ih =>
      obtain ⟨segments, tail, hrest⟩ := ih
      by_cases hcut : isTerminator c = true
      · exact ⟨[] :: segments, tail, .cons uncut_nil (isTerminator_iff.mp hcut) hrest⟩
      · -- The character belongs to what comes first, be it a segment or the tail.
        rw [Bool.not_eq_true] at hcut
        cases hrest with
        | tail huncut => exact ⟨[], c :: rest, .tail (uncut_cons hcut huncut)⟩
        | @cons segment _ _ segments _ huncut hends hrest =>
            exact ⟨(c :: segment) :: segments, tail, .cons (uncut_cons hcut huncut) hends hrest⟩

theorem Segments.uncut (hsegments : Segments text segments tail) :
    (∀ segment ∈ segments, Uncut segment) ∧ Uncut tail := by
  induction hsegments with
  | tail huncut => exact ⟨nofun, huncut⟩
  | cons huncut hcut hrest ih => exact ⟨List.forall_mem_cons.mpr ⟨huncut, ih.1⟩, ih.2⟩

theorem Uncut.notMem (huncut : Uncut text) : ';' ∉ text ∧ '\n' ∉ text :=
  ⟨fun hmem => absurd (huncut ';' hmem) (by decide),
    fun hmem => absurd (huncut '\n' hmem) (by decide)⟩

/-- There is a segment for each delimiter and each line feed, and for nothing else. -/
theorem Segments.length_eq (hsegments : Segments text segments tail) :
    segments.length = text.count ';' + text.count '\n' := by
  induction hsegments with
  | tail huncut =>
      obtain ⟨hdelimiter, hline⟩ := huncut.notMem
      rw [List.count_eq_zero_of_not_mem hdelimiter, List.count_eq_zero_of_not_mem hline,
        List.length_nil]
  | cons huncut hcut hrest ih =>
      obtain ⟨hdelimiter, hline⟩ := huncut.notMem
      rw [List.count_append, List.count_append, List.count_eq_zero_of_not_mem hdelimiter,
        List.count_eq_zero_of_not_mem hline, List.length_cons, ih]
      rcases hcut with rfl | rfl
      · rw [List.count_cons_self, List.count_cons_of_ne (by decide)]
        omega
      · rw [List.count_cons_self, List.count_cons_of_ne (by decide)]
        omega

/-- The segments of a text go before those of another text behind a terminator, with the
tail of the first one as a segment between them. -/
theorem Segments.append (hfirst : Segments text segments tail) (hcut : cut = ';' ∨ cut = '\n')
    (hsecond : Segments other others last) :
    Segments (text ++ cut :: other) (segments ++ tail :: others) last := by
  induction hfirst with
  | tail huncut => exact .cons huncut hcut hsecond
  | cons huncut hends hrest ih =>
      rw [List.append_assoc, List.cons_append, List.cons_append]
      exact .cons huncut hends ih

/-- Segments with delimiters behind them are the segments of what they make up. -/
theorem segments_terminated (huncut : ∀ segment ∈ segments, Uncut segment) :
    Segments (segments.flatMap (· ++ [delimiter])) segments [] := by
  induction segments with
  | nil => exact .tail uncut_nil
  | cons segment rest ih =>
      obtain ⟨hsegment, hrest⟩ := List.forall_mem_cons.mp huncut
      rw [List.flatMap_cons, List.append_assoc, List.singleton_append]
      exact .cons hsegment (.inl rfl) (ih hrest)

/-- The segments that are made statements: also the tail, unless it is white space. -/
def stated (segments : List (List Char)) (tail : List Char) : List (List Char) :=
  if Text.AllBlank tail then segments else segments ++ [tail]

theorem Segments.statements_eq {source : String}
    (hsegments : Segments source.toList segments tail) :
    statements source = (stated segments tail).map terminated := by
  rw [Script.statements_eq, hsegments.splitOnP_eq, kept_concat, stated]

theorem uncut_of_mem_stated (hsegments : Segments text segments tail) :
    ∀ segment ∈ stated segments tail, Uncut segment := by
  obtain ⟨hall, htail⟩ := hsegments.uncut
  unfold stated
  split
  · exact hall
  · exact List.forall_mem_append.mpr ⟨hall, List.forall_mem_singleton.mpr htail⟩

/-- A statement has its delimiter at its end and no terminator before it. -/
theorem terminated_ends {segment : List Char} (huncut : Uncut segment) :
    '\n' ∉ (terminated segment).toList ∧ (terminated segment).toList.count ';' = 1 ∧
      (terminated segment).toList.getLast? = some ';' := by
  obtain ⟨hdelimiter, hline⟩ := huncut.notMem
  rw [toList_terminated]
  refine ⟨fun hmem => ?_, ?_, List.getLast?_concat⟩
  · rcases List.mem_append.mp hmem with hmem | hmem
    · exact hline hmem
    · exact absurd (List.mem_singleton.mp hmem) (by decide)
  · rw [List.count_append, List.count_eq_zero_of_not_mem hdelimiter]
    rfl

theorem isBlank_terminated_iff {segment : List Char} (huncut : Uncut segment) :
    isBlank (terminated segment) = true ↔ Text.AllBlank segment := by
  rw [isBlank_terminated huncut.notMem.1]
  exact List.all_eq_true

/-- Statements put together have the same statements. -/
theorem statements_join (source : String) :
    statements (String.join (statements source)) = statements source := by
  obtain ⟨segments, tail, hsegments⟩ := exists_segments source.toList
  have hjoin : (String.join (statements source)).toList =
      (stated segments tail).flatMap (· ++ [delimiter]) := by
    rw [hsegments.statements_eq, String.toList_join, List.flatMap_map]
    exact List.flatMap_congr fun segment _ => toList_terminated segment
  have hstated := segments_terminated (uncut_of_mem_stated hsegments)
  rw [← hjoin] at hstated
  have hempty : Text.AllBlank [] := nofun
  rw [hstated.statements_eq, stated, if_pos hempty, hsegments.statements_eq]

/-- What is before a terminator and what is behind it have their statements apart. -/
theorem statements_append (hcut : cut = ';' ∨ cut = '\n') (first second : String) :
    statements (first ++ String.singleton cut ++ second) =
      statements (first ++ String.singleton cut) ++ statements second := by
  obtain ⟨segments, tail, hfirst⟩ := exists_segments first.toList
  obtain ⟨others, last, hsecond⟩ := exists_segments second.toList
  have hboth : Segments (first ++ String.singleton cut ++ second).toList
      (segments ++ tail :: others) last := by
    have happend := hfirst.append hcut hsecond
    simpa using happend
  have hended : Segments (first ++ String.singleton cut).toList (segments ++ [tail]) [] := by
    have happend := hfirst.append hcut (.tail uncut_nil)
    simpa using happend
  have hempty : Text.AllBlank [] := nofun
  rw [hboth.statements_eq, hended.statements_eq, hsecond.statements_eq, stated, stated, stated,
    if_pos hempty, ← List.map_append]
  split
  · simp
  · simp

/-- A text has its segments and its tail in one way only, cut at its delimiters and line
feeds and at no other characters. Its statements are its segments and, unless it is white
space, its tail; a statement is blank if its segment is white space. A statement has no
terminator but the delimiter at its end. Statements put together have the same statements,
and what stands behind a terminator has its statements whatever stands before it. -/
theorem statements_lossless (source : String) :
    ∃ segments tail, Segments source.toList segments tail ∧
      (∀ others last, Segments source.toList others last → others = segments ∧ last = tail) ∧
      segments.length = source.toList.count ';' + source.toList.count '\n' ∧
      statements source = (stated segments tail).map terminated ∧
      (∀ segment ∈ segments ++ [tail],
        (isBlank (terminated segment) = true ↔ Text.AllBlank segment)) ∧
      (∀ statement ∈ statements source, '\n' ∉ statement.toList ∧
        statement.toList.count ';' = 1 ∧ statement.toList.getLast? = some ';') ∧
      statements (String.join (statements source)) = statements source ∧
      ∀ cut, cut = ';' ∨ cut = '\n' → ∀ after,
        statements (source ++ String.singleton cut ++ after) =
          statements (source ++ String.singleton cut) ++ statements after := by
  obtain ⟨segments, tail, hsegments⟩ := exists_segments source.toList
  obtain ⟨hall, htail⟩ := hsegments.uncut
  refine ⟨segments, tail, hsegments, fun others last => hsegments.unique, hsegments.length_eq,
    hsegments.statements_eq, fun segment hmem => isBlank_terminated_iff ?_,
    fun statement hmem => ?_, statements_join source, fun cut hcut => statements_append hcut source⟩
  · exact List.forall_mem_append.mpr ⟨hall, List.forall_mem_singleton.mpr htail⟩ segment hmem
  · rw [hsegments.statements_eq] at hmem
    obtain ⟨segment, hstated, rfl⟩ := List.mem_map.mp hmem
    exact terminated_ends (uncut_of_mem_stated hsegments segment hstated)

/-- Empty segments, one that is blank, a carriage return, a delimiter in quotes and a tail
that is white space. -/
theorem statements_lossless_quoted :
    statements "a\r 'b;c'\n \n;; \t" = ["a\r 'b;", "c';", " ;", ";", ";"] ∧
      statements ("a\r 'b;c'\n \n;; \t" ++ String.singleton ';' ++ "\rd") =
        ["a\r 'b;", "c';", " ;", ";", ";", " \t;", "\rd;"] := by
  obtain ⟨_, _, _, _, _, _, _, _, _, happend⟩ := statements_lossless "a\r 'b;c'\n \n;; \t"
  refine ⟨by decide +kernel, ?_⟩
  rw [happend ';' (.inl rfl) "\rd"]
  decide +kernel

end Tabular.Script
