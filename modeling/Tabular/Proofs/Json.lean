import Mathlib.Data.List.Basic
import Tabular.Json.Printer
import Tabular.Json.Reader

/-! # Reading back JSON

What is written for a value is cut into the tokens of the value, whatever the layout, and
from these tokens the value is read. Strings are read back character by character: each is
written as itself or as an escape that stands for it alone.
-/

namespace Tabular

namespace JsonToken

/-- The text is cut into the tokens, whatever comes after it. -/
def Spells (text : String) (tokens : List JsonToken) : Prop :=
  ∀ rest, scan .between (text.toList ++ rest) = tokens ++ scan .between rest

namespace Spells

theorem append {first second : String} {tokens others : List JsonToken}
    (hfirst : Spells first tokens) (hsecond : Spells second others) :
    Spells (first ++ second) (tokens ++ others) := by
  intro rest
  rw [String.toList_append, List.append_assoc, hfirst, hsecond, List.append_assoc]

theorem intercalate {separator : String} {token : JsonToken} {texts : List String}
    {parts : List (List JsonToken)} (hseparator : Spells separator [token])
    (hparts : List.Forall₂ Spells texts parts) :
    Spells (separator.intercalate texts) ([token].intercalate parts) := by
  induction hparts with
  | nil => exact fun _ => rfl
  | cons hfirst hrest ih =>
      cases hrest with
      | nil =>
          rw [String.intercalate_singleton, List.intercalate_singleton]
          exact hfirst
      | cons hnext hothers =>
          rw [String.intercalate_cons_cons, List.intercalate_cons_cons]
          exact (hfirst.append hseparator).append ih

end Spells

theorem scan_blanks (count : Nat) (rest : List Char) :
    scan .between (List.replicate count ' ' ++ rest) = scan .between rest := by
  induction count with
  | zero => rfl
  | succ count ih => exact ih

/-- A new line and its indentation are passed over. -/
theorem spells_newLine (depth : Nat) : Spells (Json.newLine depth) [] := by
  intro rest
  rw [Json.newLine, String.toList_ofList]
  exact scan_blanks (2 * depth) rest

theorem spells_bracketed {opening closing : String} {first last : JsonToken} {depth : Nat}
    {texts : List String} {parts : List (List JsonToken)} (hopening : Spells opening [first])
    (hclosing : Spells closing [last]) (hparts : List.Forall₂ Spells texts parts) :
    Spells (Json.bracketed opening closing depth texts)
      (first :: [comma].intercalate parts ++ [last]) := by
  unfold Json.bracketed
  cases hparts with
  | nil => exact hopening.append hclosing
  | cons hfirst hrest =>
      have hcomma : Spells "," [comma] := fun _ => rfl
      have hseparator := hcomma.append (spells_newLine (depth + 1))
      have hitems := Spells.intercalate hseparator (.cons hfirst hrest)
      have hinner := (hopening.append (spells_newLine (depth + 1))).append hitems
      have hinner := hinner.append (spells_newLine depth)
      rw [List.append_nil] at hinner
      exact hinner.append hclosing

theorem hexValue?_digitChar : ∀ n < 16, hexValue? (Nat.digitChar n) = some n := by
  decide

/-- What is written for a character is read as one unit, which stands for it. -/
theorem exists_unit (c : Char) :
    ∃ unit : Unit16,
      (∀ done rest, scan (.string done) (Json.escapeChar c ++ rest) =
        scan (.string (unit :: done)) rest) ∧
      ∀ units, textOfUnits (unit :: units) = (textOfUnits units).map (c :: ·) := by
  unfold Json.escapeChar
  split
  case h_8 hquote hbackslash hb hf hn hr ht =>
    split
    next hcontrol =>
      -- The escape gives the code point, which is far below the surrogates.
      refine ⟨.escaped c.toNat, fun done rest => ?_, fun units => ?_⟩
      · have hhigh := hexValue?_digitChar (c.toNat / 16) (by omega)
        have hlow := hexValue?_digitChar (c.toNat % 16) (by omega)
        have hvalue : c.toNat / 16 * 16 + c.toNat % 16 = c.toNat := by omega
        have hzero : hexValue? '0' = some 0 := by rfl
        simp [scan, hhigh, hlow, hzero, hvalue]
      · have hhigh : ¬ (0xD800 ≤ c.toNat ∧ c.toNat < 0xDC00) := by omega
        have hlow : ¬ (0xDC00 ≤ c.toNat ∧ c.toNat < 0xE000) := by omega
        simp only [textOfUnits.eq_def (.escaped c.toNat :: units), if_neg hhigh, if_neg hlow,
          Char.ofNat_toNat]
    next hplain =>
      refine ⟨.plain c, fun done rest => ?_, fun _ => rfl⟩
      rw [List.singleton_append, scan, if_neg hquote, if_neg hbackslash, if_neg hplain]
  all_goals exact ⟨.plain _, fun _ _ => rfl, fun _ => rfl⟩

theorem exists_units (chars : List Char) :
    ∃ units : List Unit16,
      (∀ done rest, scan (.string done) (chars.flatMap Json.escapeChar ++ rest) =
        scan (.string (units.reverse ++ done)) rest) ∧
      textOfUnits units = some chars := by
  induction chars with
  | nil => exact ⟨[], fun _ _ => rfl, rfl⟩
  | cons c chars ih =>
      obtain ⟨unit, hscan, htext⟩ := exists_unit c
      obtain ⟨units, hscans, htexts⟩ := ih
      refine ⟨unit :: units, fun done rest => ?_, ?_⟩
      · rw [List.flatMap_cons, List.append_assoc, hscan, hscans]
        simp
      · rw [htext, htexts]
        rfl

theorem spells_quote (s : String) : Spells (Json.quote s) [.string (some s)] := by
  intro rest
  obtain ⟨units, hscan, htext⟩ := exists_units s.toList
  have hchars : (Json.quote s).toList ++ rest =
      '"' :: (s.toList.flatMap Json.escapeChar ++ '"' :: rest) := by
    simp [Json.quote]
  change scan .between ((Json.quote s).toList ++ rest) = .string (some s) :: scan .between rest
  rw [hchars]
  change scan (.string []) _ = _
  rw [hscan, List.append_nil, scan, if_pos rfl, List.reverse_reverse, htext]
  simp

end JsonToken

namespace Json

open JsonToken (Spells)

mutual

/-- The tokens of a value, whatever its layout. -/
def tokens : Json → List JsonToken
  | null => [.null]
  | bool b => [.bool b]
  | integer n => [.number (some n)]
  | real => [.number none]
  | string s => [.string (some s)]
  | unpaired => [.string none]
  | array items => .beginArray :: [.comma].intercalate (itemTokens items) ++ [.endArray]
  | object entries => .beginObject :: [.comma].intercalate (entryTokens entries) ++ [.endObject]
  | cut => [.fault]

def itemTokens : List Json → List (List JsonToken)
  | [] => []
  | item :: rest => tokens item :: itemTokens rest

def entryTokens : List (Option String × Json) → List (List JsonToken)
  | [] => []
  | (key, value) :: rest => (.string key :: .colon :: tokens value) :: entryTokens rest

end

theorem intercalate_cons {α : Type} (separator part : List α) (parts : List (List α)) :
    separator.intercalate (part :: parts) = part ++ parts.flatMap (separator ++ ·) := by
  induction parts generalizing part with
  | nil => simp
  | cons next parts ih =>
      rw [List.intercalate_cons_cons, ih, List.flatMap_cons, List.append_assoc, List.append_assoc]

/-- A value is read as the first item of an array as it is anywhere else. -/
theorem read_item {value : Json} (hwhole : value.isWhole = true) (stack : List Frame)
    (rest : List JsonToken) :
    read .item stack (tokens value ++ rest) =
      read .value (.array [] :: stack) (tokens value ++ rest) := by
  cases value with
  | cut => cases hwhole
  | _ => rfl

mutual

/-- A value is read from its tokens. -/
theorem read_tokens (value : Json) (hwhole : value.isWhole = true) (stack : List Frame)
    (rest : List JsonToken) :
    read .value stack (tokens value ++ rest) = read (.after value) stack rest := by
  match value with
  | cut => cases hwhole
  | null => rfl
  | bool _ => rfl
  | integer _ => rfl
  | real => rfl
  | string _ => rfl
  | unpaired => rfl
  | array [] => rfl
  | array (item :: items) =>
      -- After the bracket the array may also end, but an item is read like any value.
      obtain ⟨hitem, hitems⟩ := Bool.and_eq_true_iff.mp hwhole
      have hread := read_itemTokens items hitems item [] stack rest
      have hfirst := read_tokens item hitem (.array [] :: stack)
        ((itemTokens items).flatMap ([.comma] ++ ·) ++ .endArray :: rest)
      rw [← read_item hitem, hread] at hfirst
      rw [tokens, itemTokens, intercalate_cons, List.append_assoc, List.cons_append,
        List.append_assoc]
      exact hfirst
  | object [] => rfl
  | object ((key, first) :: entries) =>
      obtain ⟨hvalue, hentries⟩ := Bool.and_eq_true_iff.mp hwhole
      have hread := read_entryTokens entries hentries key first [] stack rest
      have hfirst := read_tokens first hvalue (.object [] key :: stack)
        ((entryTokens entries).flatMap ([.comma] ++ ·) ++ .endObject :: rest)
      rw [hread] at hfirst
      rw [tokens, entryTokens, intercalate_cons, List.append_assoc, List.cons_append,
        List.append_assoc]
      exact hfirst

/-- The rest of an array is read after one of its items. -/
theorem read_itemTokens (items : List Json) (hwhole : allWhole items = true) (value : Json)
    (done : List Json) (outer : List Frame) (rest : List JsonToken) :
    read (.after value) (.array done :: outer)
        ((itemTokens items).flatMap ([.comma] ++ ·) ++ .endArray :: rest) =
      read (.after (.array (done.reverse ++ value :: items))) outer rest := by
  match items with
  | [] => simp [itemTokens, read, Frame.close]
  | item :: items =>
      obtain ⟨hitem, hitems⟩ := Bool.and_eq_true_iff.mp hwhole
      have hread := read_itemTokens items hitems item (value :: done) outer rest
      have hfirst := read_tokens item hitem (.array (value :: done) :: outer)
        ((itemTokens items).flatMap ([.comma] ++ ·) ++ .endArray :: rest)
      rw [hread, List.reverse_cons, List.append_assoc] at hfirst
      rw [itemTokens, List.flatMap_cons, List.append_assoc, List.append_assoc]
      exact hfirst

/-- The rest of an object is read after the value of one of its entries. -/
theorem read_entryTokens (entries : List (Option String × Json))
    (hwhole : allEntriesWhole entries = true) (key : Option String) (value : Json)
    (done : List (Option String × Json)) (outer : List Frame) (rest : List JsonToken) :
    read (.after value) (.object done key :: outer)
        ((entryTokens entries).flatMap ([.comma] ++ ·) ++ .endObject :: rest) =
      read (.after (.object (done.reverse ++ (key, value) :: entries))) outer rest := by
  match entries with
  | [] => simp [entryTokens, read, Frame.close]
  | (next, first) :: entries =>
      obtain ⟨hvalue, hentries⟩ := Bool.and_eq_true_iff.mp hwhole
      have hread := read_entryTokens entries hentries next first ((key, value) :: done) outer rest
      have hfirst := read_tokens first hvalue (.object ((key, value) :: done) next :: outer)
        ((entryTokens entries).flatMap ([.comma] ++ ·) ++ .endObject :: rest)
      rw [hread, List.reverse_cons, List.append_assoc] at hfirst
      rw [entryTokens, List.flatMap_cons, List.append_assoc, List.append_assoc]
      exact hfirst

end

/-- The value is made up of texts only. -/
inductive Textual : Json → Prop
  | string (s : String) : Textual (.string s)
  | array {items : List Json} (hitems : ∀ item ∈ items, Textual item) : Textual (.array items)
  | object {entries : List (String × Json)} (hentries : ∀ entry ∈ entries, Textual entry.2) :
      Textual (.ofEntries entries)

theorem allWhole_of_forall {items : List Json} (hitems : ∀ item ∈ items, item.isWhole = true) :
    allWhole items = true := by
  induction items with
  | nil => rfl
  | cons item items ih =>
      obtain ⟨hitem, hitems⟩ := List.forall_mem_cons.mp hitems
      rw [allWhole, hitem, ih hitems]
      rfl

theorem allEntriesWhole_of_forall {entries : List (Option String × Json)}
    (hentries : ∀ entry ∈ entries, entry.2.isWhole = true) : allEntriesWhole entries = true := by
  induction entries with
  | nil => rfl
  | cons entry entries ih =>
      obtain ⟨hentry, hentries⟩ := List.forall_mem_cons.mp hentries
      rw [allEntriesWhole, hentry, ih hentries]
      rfl

theorem forall₂_itemTokens {depth : Nat} {items : List Json}
    (hitems : ∀ item ∈ items, Spells (indented depth item) (tokens item)) :
    List.Forall₂ Spells (indentedItems depth items) (itemTokens items) := by
  induction items with
  | nil => exact .nil
  | cons item items ih =>
      obtain ⟨hitem, hitems⟩ := List.forall_mem_cons.mp hitems
      exact .cons hitem (ih hitems)

theorem forall₂_entryTokens {depth : Nat} {entries : List (String × Json)}
    (hentries : ∀ entry ∈ entries, Spells (indented depth entry.2) (tokens entry.2)) :
    List.Forall₂ Spells
      (indentedEntries depth (entries.map fun (key, value) => (some key, value)))
      (entryTokens (entries.map fun (key, value) => (some key, value))) := by
  induction entries with
  | nil => exact .nil
  | cons entry entries ih =>
      obtain ⟨hentry, hentries⟩ := List.forall_mem_cons.mp hentries
      have hcolon : Spells ": " [.colon] := fun _ => rfl
      exact .cons (((JsonToken.spells_quote entry.1).append hcolon).append hentry) (ih hentries)

namespace Textual

variable {value : Json}

theorem isWhole (hvalue : Textual value) : value.isWhole = true := by
  induction hvalue with
  | string s => rfl
  | array hitems ih => exact allWhole_of_forall ih
  | @object entries hentries ih =>
      refine allEntriesWhole_of_forall fun entry hentry => ?_
      obtain ⟨source, hsource, rfl⟩ := List.mem_map.mp hentry
      exact ih source hsource

/-- What is written for a value is cut into its tokens. -/
theorem spells_indented (hvalue : Textual value) (depth : Nat) :
    Spells (indented depth value) (tokens value) := by
  induction hvalue generalizing depth with
  | string s => exact JsonToken.spells_quote s
  | array hitems ih =>
      have hparts := forall₂_itemTokens fun item hitem => ih item hitem (depth + 1)
      exact JsonToken.spells_bracketed (fun _ => rfl) (fun _ => rfl) hparts
  | object hentries ih =>
      have hparts := forall₂_entryTokens fun entry hentry => ih entry hentry (depth + 1)
      exact JsonToken.spells_bracketed (fun _ => rfl) (fun _ => rfl) hparts

/-- The whole text that is written for a value is read as that value. -/
theorem ofText_pretty (hvalue : Textual value) : ofText value.pretty = ⟨value, true⟩ := by
  have hspells := hvalue.spells_indented 0 []
  have hread := read_tokens value hvalue.isWhole [] []
  rw [List.append_nil] at hspells
  change read .value [] (JsonToken.scan .between (indented 0 value).toList) = _
  rw [hspells]
  exact hread

end Textual

end Json

end Tabular
