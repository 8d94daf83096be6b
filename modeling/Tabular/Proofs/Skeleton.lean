import Tabular.Proofs.Record

/-! # The skeleton of a selection

The keywords of a selection are found before anything between them is looked at: the first FROM,
and the first WHERE behind it. What is between them are the fields, the table and the condition.
Each of these parts is right or has a fault of its own, and a selection is read if all of them are
right. Otherwise the fault of the first part that has one is the error.
-/

namespace Tabular

variable {tokens : List Token} {e : ParseError}

namespace Token

variable {keyword : String} {before after : List Token}

/-- The tokens before and behind the first one that is the keyword. -/
def CutAt (keyword : String) (tokens before after : List Token) : Prop :=
  ∃ token, tokens = before ++ token :: after ∧ token.isKeyword keyword = true ∧
    ∀ other ∈ before, other.isKeyword keyword = false

theorem cutAt?_of_cutAt (hcut : CutAt keyword tokens before after) :
    cutAt? keyword tokens = some (before, after) := by
  obtain ⟨token, rfl, htoken, hbefore⟩ := hcut
  induction before with
  | nil => rw [List.nil_append, cutAt?, if_pos htoken]
  | cons other before ih =>
      obtain ⟨hother, hbefore⟩ := List.forall_mem_cons.mp hbefore
      rw [List.cons_append, cutAt?, hother, ih hbefore]
      rfl

theorem cutAt?_eq_none (hnone : ∀ token ∈ tokens, token.isKeyword keyword = false) :
    cutAt? keyword tokens = none := by
  induction tokens with
  | nil => rfl
  | cons token tokens ih =>
      obtain ⟨htoken, htokens⟩ := List.forall_mem_cons.mp hnone
      rw [cutAt?, htoken, ih htokens]
      rfl

/-- Tokens are cut at a keyword unless it is none of them. -/
theorem exists_cutAt (keyword : String) (tokens : List Token) :
    (∀ token ∈ tokens, token.isKeyword keyword = false) ∨
      ∃ before after, CutAt keyword tokens before after := by
  induction tokens with
  | nil => exact .inl nofun
  | cons token tokens ih =>
      cases htoken : token.isKeyword keyword with
      | true => exact .inr ⟨[], tokens, token, rfl, htoken, nofun⟩
      | false =>
          rcases ih with hnone | ⟨before, after, other, rfl, hother, hbefore⟩
          · exact .inl (List.forall_mem_cons.mpr ⟨htoken, hnone⟩)
          · exact .inr ⟨token :: before, after, other, rfl, hother,
              List.forall_mem_cons.mpr ⟨htoken, hbefore⟩⟩

theorem isWildcard_eq_true_iff {token : Token} : token.isWildcard = true ↔ token = ⟨"*", false⟩ := by
  cases token
  simp [isWildcard, and_comm]

end Token

/-! ## The fields -/

namespace Fields

/-- The tokens are the wildcard alone, or others than the wildcard. The latter name fields, each
of which counts where it is named first. -/
inductive Listed : List Token → Fields → Prop
  | all : Listed [⟨"*", false⟩] .all
  | named {tokens : List Token} (hsome : tokens ≠ []) (hwildcard : ⟨"*", false⟩ ∉ tokens) :
      Listed tokens (.named (tokens.map Token.text).eraseDups)

/-- There are no fields, or the wildcard is one of several. -/
inductive Fault : List Token → ParseError → Prop
  | missing : Fault [] .missingFields
  | mixed {tokens : List Token} (hwildcard : ⟨"*", false⟩ ∈ tokens)
      (hothers : tokens ≠ [⟨"*", false⟩]) : Fault tokens .mixedWildcard

theorem any_isWildcard_iff : tokens.any Token.isWildcard = true ↔ ⟨"*", false⟩ ∈ tokens := by
  simp [List.any_eq_true, Token.isWildcard_eq_true_iff]

theorem ofTokens_eq_ok {fields : Fields} : ofTokens tokens = .ok fields ↔ Listed tokens fields := by
  constructor
  · intro hread
    rw [ofTokens] at hread
    split at hread
    · cases hread
    next hsome =>
      split at hread
      next hwildcard =>
        split at hread
        next hone =>
          cases hread
          obtain ⟨token, rfl⟩ := List.length_eq_one_iff.mp hone
          rw [any_isWildcard_iff, List.mem_singleton] at hwildcard
          exact hwildcard ▸ .all
        next => cases hread
      next hwildcard =>
        cases hread
        rw [any_isWildcard_iff] at hwildcard
        rw [distinct_eq_eraseDups]
        exact .named (by simpa using hsome) hwildcard
  · intro hlisted
    cases hlisted with
    | all => rfl
    | named hsome hwildcard =>
        rw [ofTokens, if_neg (by simpa using hsome), if_neg (mt any_isWildcard_iff.mp hwildcard),
          distinct_eq_eraseDups]

theorem ofTokens_eq_error : ofTokens tokens = .error e ↔ Fault tokens e := by
  constructor
  · intro hfails
    rw [ofTokens] at hfails
    split at hfails
    next hnone =>
      cases hfails
      exact List.isEmpty_iff.mp hnone ▸ .missing
    next =>
      split at hfails
      next hwildcard =>
        split at hfails
        next => cases hfails
        next hseveral =>
          cases hfails
          refine .mixed (any_isWildcard_iff.mp hwildcard) ?_
          rintro rfl
          exact hseveral rfl
      next => cases hfails
  · intro hfault
    cases hfault with
    | missing => rfl
    | mixed hwildcard hothers =>
        have hseveral : tokens.length ≠ 1 := by
          intro hone
          obtain ⟨token, rfl⟩ := List.length_eq_one_iff.mp hone
          rw [List.mem_singleton] at hwildcard
          exact hothers (hwildcard ▸ rfl)
        rw [ofTokens, if_neg (by simpa using List.ne_nil_of_mem hwildcard),
          if_pos (any_isWildcard_iff.mpr hwildcard), if_neg hseveral]

end Fields

/-! ## The parts put together -/

namespace Selection

variable {arguments fieldTokens tableTokens rest : List Token} {conditionTokens : Option (List Token)}
  {fields : Fields} {selection : Selection}

/-- There is no table, or there are several. -/
inductive TableFault : List Token → ParseError → Prop
  | missing : TableFault [] .missingTable
  | extra {tokens : List Token} (hseveral : 2 ≤ tokens.length) :
      TableFault tokens (.extraTableTokens (tokens.map Token.text))

theorem tableOfTokens_eq_ok {name : String} :
    tableOfTokens tokens = .ok name ↔ ∃ table, tokens = [table] ∧ table.text = name := by
  match tokens with
  | [] => simp [tableOfTokens]
  | [table] => simp [tableOfTokens]
  | first :: second :: others => simp [tableOfTokens]

theorem tableOfTokens_eq_error : tableOfTokens tokens = .error e ↔ TableFault tokens e := by
  constructor
  · intro hfails
    unfold tableOfTokens at hfails
    split at hfails
    · cases hfails
      exact .missing
    · cases hfails
    next hnone hsingle =>
      cases hfails
      apply TableFault.extra
      match tokens with
      | [] => exact absurd rfl hnone
      | [table] => exact absurd rfl (hsingle table)
      | first :: second :: others => simp
  · intro hfault
    cases hfault with
    | missing => rfl
    | extra hseveral =>
        match tokens with
        | first :: second :: others => rfl

theorem conditionOfTokens_eq_error :
    conditionOfTokens conditionTokens = .error e ↔
      ∃ tokens, conditionTokens = some tokens ∧ Condition.ofTokens tokens = .error e := by
  cases conditionTokens with
  | none => simp [conditionOfTokens]
  | some tokens => simp [conditionOfTokens, Outcome.map_eq_error]

/-- The tokens of the fields, of the table and of the condition, if there is one: what is before
the first FROM, what is behind it up to the first WHERE, and what is behind that. -/
inductive Cut (arguments : List Token) : List Token → List Token → Option (List Token) → Prop
  | plain {fieldTokens tableTokens : List Token}
      (hfrom : Token.CutAt "from" arguments fieldTokens tableTokens)
      (hwhere : ∀ token ∈ tableTokens, token.isKeyword "where" = false) :
      Cut arguments fieldTokens tableTokens none
  | filtered {fieldTokens rest tableTokens conditionTokens : List Token}
      (hfrom : Token.CutAt "from" arguments fieldTokens rest)
      (hwhere : Token.CutAt "where" rest tableTokens conditionTokens) :
      Cut arguments fieldTokens tableTokens (some conditionTokens)

theorem exists_cut (arguments : List Token) :
    (∀ token ∈ arguments, token.isKeyword "from" = false) ∨
      ∃ fieldTokens tableTokens conditionTokens,
        Cut arguments fieldTokens tableTokens conditionTokens := by
  rcases Token.exists_cutAt "from" arguments with hnone | ⟨fieldTokens, rest, hfrom⟩
  · exact .inl hnone
  · right
    rcases Token.exists_cutAt "where" rest with hnone | ⟨tableTokens, conditionTokens, hwhere⟩
    · exact ⟨_, _, _, .plain hfrom hnone⟩
    · exact ⟨_, _, _, .filtered hfrom hwhere⟩

theorem ofTokens_of_noFrom (hnone : ∀ token ∈ arguments, token.isKeyword "from" = false) :
    Selection.ofTokens arguments = .error .missingFrom := by
  rw [Selection.ofTokens, Token.cutAt?_eq_none hnone]

/-- The parts are read one by one, in this order. -/
theorem ofTokens_of_cut (hcut : Cut arguments fieldTokens tableTokens conditionTokens) :
    Selection.ofTokens arguments = do
      let fields ← Fields.ofTokens fieldTokens
      let table ← tableOfTokens tableTokens
      let condition ← conditionOfTokens conditionTokens
      return ⟨fields, table, condition⟩ := by
  cases hcut with
  | plain hfrom hwhere =>
      rw [Selection.ofTokens, Token.cutAt?_of_cutAt hfrom]
      simp only [splitWhere, Token.cutAt?_eq_none hwhere]
  | filtered hfrom hwhere =>
      rw [Selection.ofTokens, Token.cutAt?_of_cutAt hfrom]
      simp only [splitWhere, Token.cutAt?_of_cutAt hwhere]

/-- What is behind the table: nothing, or WHERE and the tokens of a condition. -/
inductive States : List Token → Option Condition → Prop
  | nothing : States [] none
  | condition {keyword : Token} {tokens : List Token} {condition : Condition}
      (hkeyword : keyword.isKeyword "where" = true)
      (hread : Condition.ofTokens tokens = .ok condition) :
      States (keyword :: tokens) (some condition)

/-- The tokens of a selection: SELECT, the fields, FROM, one token for the table, and perhaps
WHERE and a condition. No token of the fields is FROM, and the table is not WHERE. -/
inductive Skeleton : List Token → Selection → Prop
  | intro {command keyword table : Token} {fieldTokens rest : List Token} {fields : Fields}
      {condition : Option Condition} (hcommand : command.isKeyword "select" = true)
      (hfields : ∀ token ∈ fieldTokens, token.isKeyword "from" = false)
      (hkeyword : keyword.isKeyword "from" = true) (htable : table.isKeyword "where" = false)
      (hlisted : Fields.Listed fieldTokens fields) (hstates : States rest condition) :
      Skeleton (command :: (fieldTokens ++ keyword :: table :: rest)) ⟨fields, table.text, condition⟩

/-- What is wrong with the tokens behind SELECT: that there is no FROM among them, or else the
fault of the first of the parts that has one. -/
inductive Fault (arguments : List Token) : ParseError → Prop
  | noFrom (hnone : ∀ token ∈ arguments, token.isKeyword "from" = false) :
      Fault arguments .missingFrom
  | fields {fieldTokens tableTokens : List Token} {conditionTokens : Option (List Token)}
      {e : ParseError} (hcut : Cut arguments fieldTokens tableTokens conditionTokens)
      (hfault : Fields.Fault fieldTokens e) : Fault arguments e
  | table {fieldTokens tableTokens : List Token} {conditionTokens : Option (List Token)}
      {fields : Fields} {e : ParseError}
      (hcut : Cut arguments fieldTokens tableTokens conditionTokens)
      (hlisted : Fields.Listed fieldTokens fields) (hfault : TableFault tableTokens e) :
      Fault arguments e
  | condition {fieldTokens conditionTokens : List Token} {table : Token} {fields : Fields}
      {e : ParseError} (hcut : Cut arguments fieldTokens [table] (some conditionTokens))
      (hlisted : Fields.Listed fieldTokens fields)
      (hfault : Condition.ofTokens conditionTokens = .error e) : Fault arguments e

theorem ofTokens_eq_error : Selection.ofTokens arguments = .error e ↔ Fault arguments e := by
  constructor
  · intro hfails
    rcases exists_cut arguments with hnone | ⟨fieldTokens, tableTokens, conditionTokens, hcut⟩
    · rw [ofTokens_of_noFrom hnone] at hfails
      cases hfails
      exact .noFrom hnone
    · rw [ofTokens_of_cut hcut, Outcome.bind_eq_error] at hfails
      rcases hfails with hfields | ⟨fields, hfields, hbehind⟩
      · exact .fields hcut (Fields.ofTokens_eq_error.mp hfields)
      have hlisted := Fields.ofTokens_eq_ok.mp hfields
      rcases Outcome.bind_eq_error.mp hbehind with htable | ⟨name, htable, hlast⟩
      · exact .table hcut hlisted (tableOfTokens_eq_error.mp htable)
      obtain ⟨table, rfl, -⟩ := tableOfTokens_eq_ok.mp htable
      rcases Outcome.bind_eq_error.mp hlast with hcondition | ⟨condition, -, hdone⟩
      · obtain ⟨tokens, rfl, hread⟩ := conditionOfTokens_eq_error.mp hcondition
        exact .condition hcut hlisted hread
      · cases hdone
  · intro hfault
    cases hfault with
    | noFrom hnone => exact ofTokens_of_noFrom hnone
    | fields hcut hfault =>
        rw [ofTokens_of_cut hcut, Fields.ofTokens_eq_error.mpr hfault]
        rfl
    | table hcut hlisted hfault =>
        rw [ofTokens_of_cut hcut, Fields.ofTokens_eq_ok.mpr hlisted,
          tableOfTokens_eq_error.mpr hfault]
        rfl
    | condition hcut hlisted hfault =>
        rw [ofTokens_of_cut hcut, Fields.ofTokens_eq_ok.mpr hlisted, conditionOfTokens, hfault]
        rfl

theorem cut_of_states {keyword table : Token} {condition : Option Condition}
    (hfields : ∀ token ∈ fieldTokens, token.isKeyword "from" = false)
    (hkeyword : keyword.isKeyword "from" = true) (htable : table.isKeyword "where" = false)
    (hstates : States rest condition) :
    ∃ conditionTokens, conditionOfTokens conditionTokens = .ok condition ∧
      Cut (fieldTokens ++ keyword :: table :: rest) fieldTokens [table] conditionTokens := by
  have hfrom : Token.CutAt "from" (fieldTokens ++ keyword :: table :: rest) fieldTokens
      (table :: rest) := ⟨keyword, rfl, hkeyword, hfields⟩
  have hfirst : ∀ token ∈ [table], token.isKeyword "where" = false := by simpa using htable
  cases hstates with
  | nothing => exact ⟨none, rfl, .plain hfrom hfirst⟩
  | @condition second tokens condition hsecond hread =>
      refine ⟨some tokens, ?_, .filtered hfrom ⟨second, rfl, hsecond, hfirst⟩⟩
      rw [conditionOfTokens, hread]
      rfl

theorem Cut.exists_states {table : Token} {condition : Option Condition}
    (hcut : Cut arguments fieldTokens [table] conditionTokens)
    (hcondition : conditionOfTokens conditionTokens = .ok condition) :
    ∃ keyword rest, arguments = fieldTokens ++ keyword :: table :: rest ∧
      (∀ token ∈ fieldTokens, token.isKeyword "from" = false) ∧
      keyword.isKeyword "from" = true ∧ table.isKeyword "where" = false ∧
      States rest condition := by
  cases hcut with
  | plain hfrom hwhere =>
      obtain ⟨keyword, rfl, hkeyword, hfields⟩ := hfrom
      cases hcondition
      exact ⟨keyword, [], rfl, hfields, hkeyword, hwhere table List.mem_cons_self, .nothing⟩
  | filtered hfrom hwhere =>
      obtain ⟨keyword, rfl, hkeyword, hfields⟩ := hfrom
      obtain ⟨second, rfl, hsecond, hbefore⟩ := hwhere
      obtain ⟨stated, hread, rfl⟩ := Outcome.map_eq_ok.mp hcondition
      exact ⟨keyword, _, rfl, hfields, hkeyword, hbefore table List.mem_cons_self,
        .condition hsecond hread⟩

theorem ofTokens_eq_ok {command : Token} (hcommand : command.isKeyword "select" = true) :
    Selection.ofTokens arguments = .ok selection ↔ Skeleton (command :: arguments) selection := by
  constructor
  · intro hread
    rcases exists_cut arguments with hnone | ⟨fieldTokens, tableTokens, conditionTokens, hcut⟩
    · rw [ofTokens_of_noFrom hnone] at hread
      cases hread
    · rw [ofTokens_of_cut hcut] at hread
      obtain ⟨fields, hfields, hread⟩ := Outcome.bind_eq_ok.mp hread
      obtain ⟨name, hname, hread⟩ := Outcome.bind_eq_ok.mp hread
      obtain ⟨condition, hcondition, hread⟩ := Outcome.bind_eq_ok.mp hread
      cases hread
      obtain ⟨table, rfl, rfl⟩ := tableOfTokens_eq_ok.mp hname
      obtain ⟨keyword, rest, rfl, hbefore, hkeyword, htable, hstates⟩ :=
        hcut.exists_states hcondition
      exact .intro hcommand hbefore hkeyword htable (Fields.ofTokens_eq_ok.mp hfields) hstates
  · intro hskeleton
    cases hskeleton with
    | intro _ hfields hkeyword htable hlisted hstates =>
        obtain ⟨conditionTokens, hcondition, hcut⟩ :=
          cut_of_states hfields hkeyword htable hstates
        rw [ofTokens_of_cut hcut, Fields.ofTokens_eq_ok.mpr hlisted, hcondition]
        rfl

end Selection

/-! ## Statements that are selections -/

namespace Statement

variable {body : List Token} {command : Token} {arguments : List Token}

theorem withoutTerminator_eq_iff :
    withoutTerminator tokens = body ↔
      tokens = body ++ [.terminator] ∨ tokens = body ∧ tokens.getLast? ≠ some .terminator := by
  rcases List.eq_nil_or_concat' tokens with rfl | ⟨before, last, rfl⟩
  · simp [withoutTerminator]
  · rw [withoutTerminator, List.getLast?_concat, Option.any_some, List.dropLast_concat]
    by_cases hlast : last = .terminator
    · simp [Token.isDelimiter, hlast]
    · simp [Token.isDelimiter, hlast]

theorem ofTokens_of_select (hbody : withoutTerminator tokens = command :: arguments)
    (hcommand : command.isKeyword "select" = true) :
    ofTokens tokens = (Selection.ofTokens arguments).map .select := by
  rw [ofTokens, hbody]
  simp only [hcommand, if_true]

/-- A statement that does not start with SELECT is no selection. -/
theorem isKeyword_of_ofTokens {selection : Selection}
    (hread : ofTokens tokens = .ok (.select selection)) :
    ∃ command arguments, withoutTerminator tokens = command :: arguments ∧
      command.isKeyword "select" = true := by
  rw [ofTokens] at hread
  split at hread
  · cases hread
  next command arguments hbody =>
    split at hread
    next hcommand => exact ⟨command, arguments, hbody, hcommand⟩
    next =>
      split at hread
      · split at hread <;> cases hread
      · cases hread

theorem ofTokens_eq_select (hbody : withoutTerminator tokens = body) {selection : Selection} :
    ofTokens tokens = .ok (.select selection) ↔ Selection.Skeleton body selection := by
  constructor
  · intro hread
    obtain ⟨command, arguments, hsplit, hcommand⟩ := isKeyword_of_ofTokens hread
    rw [ofTokens_of_select hsplit hcommand] at hread
    obtain ⟨read, hread, hselect⟩ := Outcome.map_eq_ok.mp hread
    cases hselect
    rw [← hbody, hsplit]
    exact (Selection.ofTokens_eq_ok hcommand).mp hread
  · intro hskeleton
    cases hskeleton with
    | intro hcommand hfields hkeyword htable hlisted hstates =>
        have hread := (Selection.ofTokens_eq_ok hcommand).mpr
          (.intro hcommand hfields hkeyword htable hlisted hstates)
        rw [ofTokens_of_select hbody hcommand, hread]
        rfl

/-- Without the delimiter at their end, if they have one, tokens are read as a selection exactly
if they have its skeleton. If they start with SELECT and have not, there is a fault, and the first
one is the error. -/
theorem ofTokens_recognises (tokens body : List Token)
    (hbody : tokens = body ++ [.terminator] ∨
      tokens = body ∧ tokens.getLast? ≠ some .terminator) :
    (∀ selection, ofTokens tokens = .ok (.select selection) ↔ Selection.Skeleton body selection) ∧
      ∀ command arguments, body = command :: arguments → command.isKeyword "select" = true →
        (∀ e, ofTokens tokens = .error e ↔ Selection.Fault arguments e) ∧
          ((∃ selection, Selection.Skeleton body selection) ∨ ∃ e, Selection.Fault arguments e) := by
  have hsplit := withoutTerminator_eq_iff.mpr hbody
  refine ⟨fun selection => ofTokens_eq_select hsplit, ?_⟩
  rintro command arguments rfl hcommand
  refine ⟨fun e => ?_, ?_⟩
  · rw [ofTokens_of_select hsplit hcommand, Outcome.map_eq_error, Selection.ofTokens_eq_error]
  · cases hread : Selection.ofTokens arguments with
    | ok selection => exact .inl ⟨selection, (Selection.ofTokens_eq_ok hcommand).mp hread⟩
    | error e => exact .inr ⟨e, Selection.ofTokens_eq_error.mp hread⟩

/-- Quoted keywords are a field and a table. Of a second table and a condition without anything
in it the table is the error. -/
theorem ofTokens_recognises_keywords :
    ofTokens [⟨"Select", false⟩, ⟨"id", false⟩, ⟨"from", true⟩, ⟨"id", false⟩, ⟨"FROM", false⟩,
        ⟨"where", true⟩, ⟨";", false⟩] =
      .ok (.select ⟨.named ["id", "from"], "where", none⟩) ∧
    ofTokens [⟨"select", false⟩, ⟨"id", false⟩, ⟨"from", false⟩, ⟨"a", false⟩, ⟨"b", true⟩,
        ⟨"where", false⟩] =
      .error (.extraTableTokens ["a", "b"]) := by
  constructor
  · have hfields : Fields.Listed [⟨"id", false⟩, ⟨"from", true⟩, ⟨"id", false⟩]
        (.named ["id", "from"]) := .named nofun (by decide)
    have hskeleton := @Selection.Skeleton.intro ⟨"Select", false⟩ ⟨"FROM", false⟩ ⟨"where", true⟩
      _ _ _ _ (by decide) (by decide) (by decide) (by decide) hfields .nothing
    exact ((ofTokens_recognises _ _ (.inl rfl)).1 _).mpr hskeleton
  · have hfields : Fields.Listed [⟨"id", false⟩] (.named ["id"]) := .named nofun (by decide)
    have hfrom : Token.CutAt "from" [⟨"id", false⟩, ⟨"from", false⟩, ⟨"a", false⟩, ⟨"b", true⟩,
        ⟨"where", false⟩] [⟨"id", false⟩] [⟨"a", false⟩, ⟨"b", true⟩, ⟨"where", false⟩] :=
      ⟨⟨"from", false⟩, rfl, by decide, by decide⟩
    have hwhere : Token.CutAt "where" [⟨"a", false⟩, ⟨"b", true⟩, ⟨"where", false⟩]
        [⟨"a", false⟩, ⟨"b", true⟩] [] := ⟨⟨"where", false⟩, rfl, by decide, by decide⟩
    have hfault := Selection.Fault.table (.filtered hfrom hwhere) hfields
      (.extra (Nat.le_refl 2))
    exact (((ofTokens_recognises _ _ (.inr ⟨rfl, by decide⟩)).2 _ _ rfl (by decide)).1 _).mpr hfault

end Statement

end Tabular
