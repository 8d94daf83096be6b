import Tabular.Proofs.Separator

/-! # Lists of tokens that are read back

A list of tokens comes of a text exactly if its unquoted tokens could stand in one as they are:
each is the delimiter, or has characters and all of them plain. Quoted tokens may hold anything.
Such a list is read back from what is written for its tokens, whatever separators are between them.
-/

namespace Tabular.Token

/-- An unquoted token is the delimiter or a plain word. -/
def WellFormed (token : Token) : Prop :=
  token.quoted = false →
    token = terminator ∨ token.text.toList ≠ [] ∧ ∀ c ∈ token.text.toList, isPlain c = true

/-- A quoted token is written as a quoted word and all others as they are. -/
def written (token : Token) : List Char :=
  if token.quoted then quoteWord token.text else token.text.toList

/-- The tokens as they are written, with one or more separators between them. -/
inductive Spaced : List Token → List Char → Prop
  | none : Spaced [] []
  | last (token : Token) : Spaced [token] token.written
  | more (token : Token) (gap : List Char) {next : Token} {tokens : List Token}
      {rest : List Char} (hsome : gap ≠ []) (hgap : ∀ c ∈ gap, isSeparator c = true)
      (hrest : Spaced (next :: tokens) rest) :
      Spaced (token :: next :: tokens) (token.written ++ (gap ++ rest))

variable {token : Token} {tokens : List Token} {pending next : Pending} {c : Char}
  {text rest : List Char}

/-! ## What is read is well formed -/

/-- A word that is not quoted so far has plain characters only, and no quote is open in it. -/
def Pending.Sound (pending : Pending) : Prop :=
  pending.quoted = false → pending.openQuote = none ∧ ∀ c ∈ pending.word, isPlain c = true

theorem Pending.sound_empty : Pending.empty.Sound := fun _ => ⟨rfl, nofun⟩

theorem Pending.Goes.sound (hgoes : pending.Goes c next) (hsound : pending.Sound) :
    next.Sound := by
  intro hquoted
  cases hgoes with
  | closes hopen =>
      have hclosed := (hsound hquoted).1
      rw [hopen] at hclosed
      cases hclosed
  | opens => cases hquoted
  | quoted hopen hother =>
      have hclosed := (hsound hquoted).1
      rw [hopen] at hclosed
      cases hclosed
  | plain hclosed hplain =>
      exact ⟨hclosed, List.forall_mem_cons.mpr ⟨hplain, (hsound hquoted).2⟩⟩

theorem Pending.Sound.wellFormed (hsound : pending.Sound) :
    ∀ token ∈ pending.tokens, token.WellFormed := by
  intro token htoken
  unfold Pending.tokens at htoken
  split at htoken
  · cases htoken
  next hsome =>
    rw [List.mem_singleton.mp htoken]
    intro hquoted
    have hquoted : pending.quoted = false := hquoted
    simp only [hquoted, Bool.not_false, Bool.and_true, List.isEmpty_iff] at hsome
    right
    simpa [hsome] using (hsound hquoted).2

theorem wellFormed_ofBreak (c : Char) : ∀ token ∈ ofBreak c, token.WellFormed := by
  intro token htoken
  unfold ofBreak at htoken
  split at htoken
  · exact fun _ => .inl (List.mem_singleton.mp htoken)
  · cases htoken

theorem wellFormed_of_read (hsound : pending.Sound) (hread : read pending text = .ok tokens) :
    ∀ token ∈ tokens, token.WellFormed := by
  induction text generalizing pending tokens with
  | nil =>
      rw [read] at hread
      split at hread
      · cases hread
      · cases hread
        exact hsound.wellFormed
  | cons c text ih =>
      rcases read_cons pending c with ⟨hends, hclosed⟩ | ⟨next, hgoes, hnext⟩
      · rw [read_break hends hclosed] at hread
        obtain ⟨following, hfollowing, rfl⟩ := Outcome.map_eq_ok.mp hread
        have hword := List.forall_mem_append.mpr ⟨hsound.wellFormed, wellFormed_ofBreak c⟩
        exact List.forall_mem_append.mpr ⟨hword, ih Pending.sound_empty hfollowing⟩
      · rw [hnext] at hread
        exact ih (hgoes.sound hsound) hread

/-! ## What is written is read back -/

theorem Follow.read (hfollow : Follow tokens rest) : Token.read .empty rest = .ok tokens :=
  hfollow [] false

theorem Follow.read_written (hfollow : Follow tokens rest) (hwell : token.WellFormed) :
    Token.read .empty (token.written ++ rest) = .ok (token :: tokens) := by
  rw [written]
  split
  next hquoted =>
    rw [hfollow.read_quoteWord, ← hquoted]
  next hplain =>
    rw [Bool.not_eq_true] at hplain
    rcases hwell hplain with rfl | ⟨hsome, hchars⟩
    · exact (follow_delimiter hfollow.read).read
    · rw [hfollow.read_plain hsome hchars, String.ofList_toList, ← hplain]

theorem Spaced.read (hspaced : Spaced tokens text)
    (hwell : ∀ token ∈ tokens, token.WellFormed) : Token.read .empty text = .ok tokens := by
  induction hspaced with
  | none => rfl
  | last token =>
      have hread := follow_end.read_written (hwell token List.mem_cons_self)
      rwa [List.append_nil] at hread
  | more token gap hsome hgap hrest ih =>
      obtain ⟨htoken, htokens⟩ := List.forall_mem_cons.mp hwell
      exact (follow_gap hgap hsome (ih htokens)).read_written htoken

/-- All tokens can be written, with commas between them to name one way. -/
theorem exists_spaced (tokens : List Token) : ∃ text, Spaced tokens text := by
  induction tokens with
  | nil => exact ⟨_, .none⟩
  | cons token tokens ih =>
      obtain ⟨rest, hrest⟩ := ih
      cases tokens with
      | nil => exact ⟨_, .last token⟩
      | cons next tokens =>
          exact ⟨_, .more token [','] nofun (List.all_eq_true.mp rfl) hrest⟩

/-- The lists of tokens that are read of texts are those of well-formed tokens, and these are
read back from what is written for them, with any separators between the tokens. -/
theorem ofText_image (tokens : List Token) :
    ((∃ text, ofText text = .ok tokens) ↔ ∀ token ∈ tokens, token.WellFormed) ∧
      ((∀ token ∈ tokens, token.WellFormed) →
        ∀ text, Spaced tokens text → ofText (String.ofList text) = .ok tokens) := by
  have hback : (∀ token ∈ tokens, token.WellFormed) →
      ∀ text, Spaced tokens text → ofText (String.ofList text) = .ok tokens := by
    intro hwell text hspaced
    rw [ofText, String.toList_ofList, hspaced.read hwell]
  refine ⟨⟨?_, fun hwell => ?_⟩, hback⟩
  · rintro ⟨text, hread⟩
    exact wellFormed_of_read Pending.sound_empty hread
  · obtain ⟨text, hspaced⟩ := exists_spaced tokens
    exact ⟨String.ofList text, hback hwell text hspaced⟩

/-- Quoted tokens that hold nothing, both quotes, a separator or the delimiter, next to a
delimiter and a plain word. -/
theorem ofText_image_quotes :
    ofText "'' ,\t'it'\"'\"'s \"'\n; 'a,b;'  c" =
      .ok [⟨"", true⟩, ⟨"it's \"", true⟩, ⟨";", false⟩, ⟨"a,b;", true⟩, ⟨"c", false⟩] := by
  have hquoted : ∀ text, WellFormed ⟨text, true⟩ := fun _ => nofun
  have hdelimiter : WellFormed ⟨";", false⟩ := fun _ => .inl rfl
  have hplain : WellFormed ⟨"c", false⟩ := fun _ => .inr ⟨nofun, List.all_eq_true.mp rfl⟩
  have hwell : ∀ token ∈ [⟨"", true⟩, ⟨"it's \"", true⟩, ⟨";", false⟩, ⟨"a,b;", true⟩, ⟨"c", false⟩],
      WellFormed token := by
    simp only [List.forall_mem_cons]
    exact ⟨hquoted _, hquoted _, hdelimiter, hquoted _, hplain, nofun⟩
  have hgap : ∀ gap : List Char, gap.all isSeparator = true → ∀ c ∈ gap, isSeparator c = true :=
    fun gap hall => List.all_eq_true.mp hall
  have hspaced := Spaced.more ⟨"", true⟩ [' ', ',', '\t'] nofun (hgap _ rfl)
    (.more ⟨"it's \"", true⟩ ['\n'] nofun (hgap _ rfl)
      (.more ⟨";", false⟩ [' '] nofun (hgap _ rfl)
        (.more ⟨"a,b;", true⟩ [' ', ' '] nofun (hgap _ rfl) (.last ⟨"c", false⟩))))
  exact (ofText_image _).2 hwell _ hspaced

end Tabular.Token
