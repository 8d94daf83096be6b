import Tabular.Proofs.Token
import Tabular.Proofs.Trim
import Tabular.Script

/-! # Cutting scripts

The statements of a script are the parts between its terminators, each with a delimiter at its
end, but for a last part that is white space. So a script that selects everything from a quoted
table is one statement, whatever the name of the table is, as long as it has no quote, delimiter
or line feed in it.
-/

namespace Tabular

namespace Token

theorem read_selectAll {table : String} (hquote : '\'' ∉ table.toList) :
    read .empty ("select * from '".toList ++ table.toList ++ ['\'', delimiter]) =
      .ok [⟨"select", false⟩, ⟨"*", false⟩, ⟨"from", false⟩, ⟨table, true⟩, terminator] := by
  have hend : Follow [terminator] [delimiter] := follow_delimiter rfl
  have htable := hend.read_quoteWord table
  rw [quoteWord_of_no_quote hquote, List.append_assoc] at htable
  have hfrom := @read_word _ _ "from" rfl nofun htable
  have hstar := @read_word _ _ "*" rfl nofun hfrom
  have hselect := @read_word _ _ "select" rfl nofun hstar
  have hwords : "select * from '".toList =
      "select".toList ++ ' ' :: ("*".toList ++ ' ' :: ("from".toList ++ [' ', '\''])) := rfl
  rw [hwords]
  simp only [List.append_assoc, List.cons_append, List.nil_append] at hselect ⊢
  exact hselect

end Token

namespace Statement

theorem ofTokens_selectAll (table : String) :
    ofTokens [⟨"select", false⟩, ⟨"*", false⟩, ⟨"from", false⟩, ⟨table, true⟩, .terminator] =
      .ok (.select ⟨.all, table, none⟩) := by
  rfl

end Statement

namespace Script

/-- The characters can stand in one statement of a script. -/
def Uncut (text : List Char) : Prop :=
  ∀ c ∈ text, isTerminator c = false

theorem uncut_append {first second : List Char} (hfirst : Uncut first) (hsecond : Uncut second) :
    Uncut (first ++ second) :=
  List.forall_mem_append.mpr ⟨hfirst, hsecond⟩

theorem uncut_cons {c : Char} {rest : List Char} (hc : isTerminator c = false) (hrest : Uncut rest) :
    Uncut (c :: rest) :=
  List.forall_mem_cons.mpr ⟨hc, hrest⟩

theorem uncut_of_notMem {text : List Char} (hdelimiter : delimiter ∉ text) (hline : '\n' ∉ text) :
    Uncut text := by
  intro c hc
  unfold isTerminator
  simp only [Bool.or_eq_false_iff, beq_eq_false_iff_ne]
  constructor
  · rintro rfl
    exact hdelimiter hc
  · rintro rfl
    exact hline hc

theorem uncut_of_any {text : List Char} (hnone : text.any isTerminator = false) : Uncut text :=
  fun c hc => Bool.not_eq_true _ ▸ List.any_eq_false.mp hnone c hc

/-- The statement that is made of a part. -/
def terminated (part : List Char) : String :=
  String.ofList (part ++ [delimiter])

theorem toList_terminated (part : List Char) : (terminated part).toList = part ++ [delimiter] :=
  String.toList_ofList

theorem ended_eq (current : List Char) : ended current = terminated current.reverse := by
  rw [ended, terminated, List.reverse_cons]

/-- The parts that are made statements: all of them but for a last one that is white space. -/
def kept (parts : List (List Char)) : List (List Char) :=
  if Text.AllBlank (parts.getLastD []) then parts.dropLast else parts

theorem kept_cons {parts : List (List Char)} (hparts : parts ≠ []) (part : List Char) :
    kept (part :: parts) = part :: kept parts := by
  obtain ⟨next, rest, rfl⟩ := List.exists_cons_of_ne_nil hparts
  have hlast : (part :: next :: rest).getLastD [] = (next :: rest).getLastD [] := rfl
  rw [kept, kept, hlast, List.dropLast_cons_cons]
  split <;> rfl

theorem kept_concat (segments : List (List Char)) (tail : List Char) :
    kept (segments ++ [tail]) =
      if Text.AllBlank tail then segments else segments ++ [tail] := by
  rw [kept, List.getLastD_concat, List.dropLast_concat]

/-- Reading on, with what was read since the last terminator, makes statements of what is cut
off with it. -/
theorem cut_eq (current rest : List Char) :
    cut current rest = (kept (rest.splitOnPPrepend isTerminator current)).map terminated := by
  induction rest generalizing current with
  | nil =>
      have hkept := kept_concat [] current.reverse
      rw [List.nil_append] at hkept
      rw [cut, List.splitOnPPrepend_nil, hkept]
      simp only [List.isEmpty_iff, Text.trim_eq_nil_iff]
      split
      next => rfl
      next => rw [ended_eq, List.map_singleton]
  | cons c rest ih =>
      rw [cut]
      split
      next hcut =>
        rw [List.splitOnPPrepend_cons_pos hcut, kept_cons (List.splitOnP_ne_nil isTerminator rest),
          List.map_cons, ended_eq, ih, List.splitOnPPrepend_nil_right]
      next huncut =>
        rw [List.splitOnPPrepend_cons_neg (Bool.not_eq_true _ ▸ huncut), ih]

/-- The statements of a script are what it has between its terminators. -/
theorem statements_eq (source : String) :
    statements source = (kept (source.toList.splitOnP isTerminator)).map terminated := by
  rw [statements, cut_eq, List.splitOnPPrepend_nil_right]

/-- A text without terminators is one statement, which is given the delimiter it lacks,
unless it is blank. -/
theorem statements_eq_singleton {source : String}
    (huncut : Uncut source.toList)
    (hvisible : ∃ c ∈ source.toList, Text.isBlank c = false) :
    statements source = [String.ofList (source.toList ++ [delimiter])] := by
  have hblank : ¬Text.AllBlank source.toList := by
    obtain ⟨c, hc, hvisible⟩ := hvisible
    intro hall
    rw [hall c hc] at hvisible
    cases hvisible
  have hkept := kept_concat [] source.toList
  rw [if_neg hblank, List.nil_append] at hkept
  rw [statements_eq, List.splitOnP_eq_singleton huncut, hkept]
  rfl

theorem parse_eq_singleton {source : String} (huncut : Uncut source.toList)
    (hvisible : ∃ c ∈ source.toList, Text.isBlank c = false) {statement : Statement}
    (hread : Statement.ofText (String.ofList (source.toList ++ [delimiter])) = .ok statement) :
    parse source = .ok [statement] := by
  have hkept : isBlank (String.ofList (source.toList ++ [delimiter])) = false := by
    obtain ⟨c, hc, hvisible⟩ := hvisible
    have hdelimiter : c ≠ delimiter := by
      rintro rfl
      cases huncut _ hc
    rw [isBlank, String.toList_ofList, List.all_eq_false]
    exact ⟨c, List.mem_append_left _ hc, by simp [hvisible, hdelimiter]⟩
  rw [parse, statements_eq_singleton huncut hvisible, List.filter_cons_of_pos (by rw [hkept]; rfl),
    List.filter_nil, List.mapM_cons, hread]
  rfl

end Script

/-- The statement that selects everything from a quoted table. -/
def Script.selectAll (table : String) : String :=
  "select * from '" ++ table ++ "'"

namespace Script

theorem toList_selectAll (table : String) :
    (selectAll table).toList = "select * from '".toList ++ table.toList ++ ['\''] := by
  have hclose : "'".toList = ['\''] := rfl
  change ("select * from '" ++ table ++ "'").toList = _
  rw [String.toList_append, String.toList_append, hclose]

theorem uncut_selectAll {table : String} (hdelimiter : delimiter ∉ table.toList)
    (hline : '\n' ∉ table.toList) : Uncut (selectAll table).toList := by
  rw [toList_selectAll]
  exact uncut_append (uncut_append (uncut_of_any rfl) (uncut_of_notMem hdelimiter hline))
    (uncut_of_any rfl)

/-- The script that selects everything from a quoted table is that one statement. -/
theorem parse_selectAll {table : String} (hquote : '\'' ∉ table.toList)
    (hdelimiter : delimiter ∉ table.toList) (hline : '\n' ∉ table.toList) :
    parse (selectAll table) = .ok [.select ⟨.all, table, none⟩] := by
  apply parse_eq_singleton (uncut_selectAll hdelimiter hline)
  · exact ⟨'s', by rw [toList_selectAll]; exact List.mem_cons_self, by decide⟩
  · rw [toList_selectAll, List.append_assoc, Statement.ofText, Token.ofText, String.toList_ofList]
    rw [List.singleton_append, Token.read_selectAll hquote]
    exact Statement.ofTokens_selectAll table

end Script

end Tabular
