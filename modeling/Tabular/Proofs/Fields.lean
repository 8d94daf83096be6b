import Mathlib.Data.List.Permutation
import Tabular.Json.Fields
import Tabular.Proofs.Outcome

/-! # Structures read from JSON

A structure is written as an array of its fields or as an object that has each of them once,
among entries of other names. Reading takes up the fields in the order of the text; it
succeeds exactly if the value is so written and each field can be taken up.
-/

namespace Tabular.Json

variable {σ : Type} {names : List String} {fields given : List (String × Json)} {value : Json}
  {set : σ → String → Json → Except DocumentFault σ} {draft final : σ}

theorem asText_eq_ok {text : String} :
    value.asText = .ok text ↔ value = .string text := by
  cases value <;> simp [asText]

theorem asList_eq_ok {α : Type} {item : Json → Except DocumentFault α} {results : List α} :
    value.asList item = .ok results ↔
      ∃ items, value = .array items ∧
        List.Forall₂ (fun result entry => item entry = .ok result) results items := by
  have hflip : ∀ items : List Json, items.mapM item = .ok results ↔
      List.Forall₂ (fun result entry => item entry = .ok result) results items :=
    fun items => mapM_eq_ok_iff.trans ⟨.flip, .flip⟩
  cases value <;> simp [asList, hflip]

theorem required_eq_ok {α : Type} {found : Option α} {a : α} :
    required found = .ok a ↔ found = some a := by
  cases found <;> simp [required]

/-- The entries of an object that are fields. -/
def known (names : List String) (entries : List (String × Json)) : List (String × Json) :=
  entries.filter fun entry => entry.1 ∈ names

theorem known_cons_of_mem {entry : String × Json} (hentry : entry.1 ∈ names)
    (rest : List (String × Json)) : known names (entry :: rest) = entry :: known names rest :=
  List.filter_cons_of_pos (decide_eq_true hentry)

theorem known_cons_of_notMem {entry : String × Json} (hentry : entry.1 ∉ names)
    (rest : List (String × Json)) : known names (entry :: rest) = known names rest :=
  List.filter_cons_of_neg (by simpa using hentry)

/-- The value has the given fields among those of a structure, in the order of the text: it
is an array of the first fields, or an object without repeated fields and with entries of
other names. -/
inductive Presents (names : List String) (given : List (String × Json)) : Json → Prop
  | items (hnames : given.map Prod.fst <+: names) :
      Presents names given (.array (given.map Prod.snd))
  | entries {entries : List (String × Json)} (hknown : known names entries = given)
      (hdistinct : (given.map Prod.fst).Nodup)
      (hothers : ∀ entry ∈ entries, entry.1 ∉ names → entry.2.isWhole = true) :
      Presents names given (.ofEntries entries)

/-- The value is a structure with these fields and no other. -/
def Gives (fields : List (String × Json)) (value : Json) : Prop :=
  ∃ given, Presents (fields.map Prod.fst) given value ∧ given.Perm fields

/-- Takes up fields one after the other. -/
def setAll (set : σ → String → Json → Except DocumentFault σ) (draft : σ)
    (fields : List (String × Json)) : Except DocumentFault σ :=
  fields.foldlM (fun draft field => set draft field.1 field.2) draft

theorem setAll_cons (draft : σ) (field : String × Json) (rest : List (String × Json)) :
    setAll set draft (field :: rest) =
      match set draft field.1 field.2 with
      | .ok draft => setAll set draft rest
      | .error fault => .error fault := by
  rw [setAll, List.foldlM_cons]
  cases set draft field.1 field.2 <;> rfl

/-- Entries are taken up in their order, without those that are no fields. -/
theorem foldEntries_eq_setAll {entries : List (String × Json)} {seen : List String}
    (hdistinct : ((known names entries).map Prod.fst ++ seen).Nodup)
    (hothers : ∀ entry ∈ entries, entry.1 ∉ names → entry.2.isWhole = true) (draft : σ) :
    foldEntries names set seen draft (entries.map fun (key, value) => (some key, value)) =
      setAll set draft (known names entries) := by
  induction entries generalizing seen draft with
  | nil => rfl
  | cons entry rest ih =>
      obtain ⟨key, value⟩ := entry
      obtain ⟨hentry, hrest⟩ := List.forall_mem_cons.mp hothers
      rw [List.map_cons, foldEntries]
      by_cases hkey : key ∈ names
      · rw [known_cons_of_mem hkey] at hdistinct ⊢
        obtain ⟨hnew, hnodup⟩ := List.nodup_cons.mp hdistinct
        have hunseen : key ∉ seen := fun hmem => hnew (List.mem_append_right _ hmem)
        rw [if_pos hkey, if_neg hunseen, setAll_cons]
        cases set draft key value with
        | error fault => rfl
        | ok next =>
            -- The key moves from the entries to those seen.
            exact ih (List.perm_middle.nodup_iff.mpr hdistinct) hrest next
      · rw [known_cons_of_notMem hkey] at hdistinct ⊢
        rw [if_neg hkey, if_pos (hentry hkey)]
        exact ih hdistinct hrest draft

/-- What is taken up as an object has texts as keys, no field twice, and no other entry that
is not JSON. -/
theorem exists_of_foldEntries {entries : List (Option String × Json)} {seen : List String}
    (hseen : seen.Nodup) (hfold : foldEntries names set seen draft entries = .ok final) :
    ∃ texts : List (String × Json), entries = texts.map (fun (key, value) => (some key, value)) ∧
      ((known names texts).map Prod.fst ++ seen).Nodup ∧
      ∀ entry ∈ texts, entry.1 ∉ names → entry.2.isWhole = true := by
  induction entries generalizing seen draft with
  | nil => exact ⟨[], rfl, hseen, fun entry hentry => absurd hentry List.not_mem_nil⟩
  | cons entry rest ih =>
      obtain ⟨key | key, value⟩ := entry
      · cases hfold
      rw [foldEntries] at hfold
      split at hfold
      next hkey =>
        split at hfold
        next => cases hfold
        next hunseen =>
          split at hfold
          next next hset =>
            have hnext : (key :: seen).Nodup := List.nodup_cons.mpr ⟨hunseen, hseen⟩
            obtain ⟨texts, rfl, hdistinct, hothers⟩ := ih hnext hfold
            refine ⟨(key, value) :: texts, rfl, ?_, List.forall_mem_cons.mpr ⟨?_, hothers⟩⟩
            · rw [known_cons_of_mem hkey]
              exact List.perm_middle.nodup_iff.mp hdistinct
            · exact fun hother => absurd hkey hother
          next => cases hfold
      next hkey =>
        split at hfold
        next hwhole =>
          obtain ⟨texts, rfl, hdistinct, hothers⟩ := ih hseen hfold
          refine ⟨(key, value) :: texts, rfl, ?_, List.forall_mem_cons.mpr ⟨?_, hothers⟩⟩
          · rw [known_cons_of_notMem hkey]
            exact hdistinct
          · exact fun _ => hwhole
        next => cases hfold

theorem foldItems_eq_setAll (hnames : given.map Prod.fst <+: names) (draft : σ) :
    foldItems set names draft (given.map Prod.snd) = setAll set draft given := by
  induction given generalizing names draft with
  | nil => cases names <;> rfl
  | cons field rest ih =>
      obtain ⟨others, rfl⟩ := hnames
      rw [List.map_cons, List.map_cons, List.cons_append, foldItems, setAll_cons]
      cases set draft field.1 field.2 with
      | error fault => rfl
      | ok next => exact ih (List.prefix_append _ _) next

/-- What is taken up as an array has no more items than there are fields. -/
theorem exists_of_foldItems {items : List Json}
    (hfold : foldItems set names draft items = .ok final) :
    ∃ given : List (String × Json), given.map Prod.fst <+: names ∧ items = given.map Prod.snd := by
  induction items generalizing names draft with
  | nil => exact ⟨[], List.nil_prefix, rfl⟩
  | cons item rest ih =>
      cases names with
      | nil => cases hfold
      | cons name names =>
          rw [foldItems] at hfold
          split at hfold
          next next hset =>
            obtain ⟨given, hnames, rfl⟩ := ih hfold
            exact ⟨(name, item) :: given, (List.prefix_cons_inj name).mpr hnames, rfl⟩
          next => cases hfold

theorem Presents.foldFields (hpresents : Presents names given value) (draft : σ) :
    value.foldFields names set draft = setAll set draft given := by
  cases hpresents with
  | items hnames => exact foldItems_eq_setAll hnames draft
  | entries hknown hdistinct hothers =>
      subst hknown
      refine foldEntries_eq_setAll ?_ hothers draft
      rw [List.append_nil]
      exact hdistinct

/-- A structure is read exactly from the values that present fields of it, which are taken
up one after the other. -/
theorem foldFields_eq_ok :
    value.foldFields names set draft = .ok final ↔
      ∃ given, Presents names given value ∧ setAll set draft given = .ok final := by
  constructor
  · intro hfold
    cases value with
    | array items =>
        obtain ⟨given, hnames, rfl⟩ := exists_of_foldItems hfold
        have hpresents : Presents names given (.array (given.map Prod.snd)) := .items hnames
        exact ⟨given, hpresents, (hpresents.foldFields draft).symm.trans hfold⟩
    | object entries =>
        obtain ⟨texts, rfl, hdistinct, hothers⟩ := exists_of_foldEntries List.nodup_nil hfold
        rw [List.append_nil] at hdistinct
        have hpresents : Presents names (known names texts) (.ofEntries texts) :=
          .entries rfl hdistinct hothers
        exact ⟨known names texts, hpresents, (hpresents.foldFields draft).symm.trans hfold⟩
    | _ => cases hfold
  · rintro ⟨given, hpresents, hset⟩
    exact (hpresents.foldFields draft).trans hset

namespace Presents

theorem nodup (hpresents : Presents names given value) (hnames : names.Nodup) :
    (given.map Prod.fst).Nodup := by
  cases hpresents with
  | items hprefix => exact hprefix.sublist.nodup hnames
  | entries hknown hdistinct hothers => exact hdistinct

theorem mem_names (hpresents : Presents names given value) {field : String × Json}
    (hfield : field ∈ given) : field.1 ∈ names := by
  cases hpresents with
  | items hprefix => exact hprefix.subset (List.mem_map_of_mem hfield)
  | entries hknown hdistinct hothers =>
      subst hknown
      simpa using (List.mem_filter.mp hfield).2

/-- A value that lacks none of the fields is the structure with these fields. -/
theorem gives (hpresents : Presents names given value) (hnames : names.Nodup)
    (hall : fields.map Prod.fst = names) (hfields : ∀ field ∈ fields, field ∈ given) :
    Gives fields value := by
  subst hall
  have hgiven := hpresents.nodup hnames
  refine ⟨given, hpresents, ?_⟩
  rw [List.perm_ext_iff_of_nodup hgiven.of_map hnames.of_map]
  refine fun field => ⟨fun hfield => ?_, hfields field⟩
  obtain ⟨other, hother, hname⟩ := List.mem_map.mp (hpresents.mem_names hfield)
  rw [← List.inj_on_of_nodup_map hgiven (hfields other hother) hfield hname]
  exact hother

end Presents

theorem gives_ofEntries (hnames : (fields.map Prod.fst).Nodup) :
    Gives fields (.ofEntries fields) := by
  have hfields : ∀ field ∈ fields, field.1 ∈ fields.map Prod.fst :=
    fun field hfield => List.mem_map_of_mem hfield
  have hknown : known (fields.map Prod.fst) fields = fields :=
    List.filter_eq_self.mpr fun field hfield => decide_eq_true (hfields field hfield)
  exact ⟨fields, .entries hknown hnames fun field hfield hother =>
    absurd (hfields field hfield) hother, .refl _⟩

section Found

variable {α : Type} {get : σ → Option α} {name : String} {means : Json → α → Prop} {a : α}

/-- What is found after fields were taken up was found before or comes of one of them. -/
theorem mem_of_setAll (hset : setAll set draft given = .ok final)
    (hstep : ∀ key value, (key, value) ∈ given → ∀ draft next a, set draft key value = .ok next →
      get next = some a → get draft = some a ∨ key = name ∧ means value a)
    (hget : get final = some a) :
    get draft = some a ∨ ∃ value, (name, value) ∈ given ∧ means value a := by
  induction given generalizing draft with
  | nil =>
      cases hset
      exact .inl hget
  | cons field rest ih =>
      obtain ⟨key, value⟩ := field
      rw [setAll_cons] at hset
      split at hset
      next next hnext =>
        have hrest := ih hset fun other item hmem => hstep other item (List.mem_cons_of_mem _ hmem)
        rcases hrest with hget | ⟨item, hitem, hmeans⟩
        · have hfirst := hstep key value List.mem_cons_self draft next a hnext hget
          rcases hfirst with hget | ⟨rfl, hmeans⟩
          · exact .inl hget
          · exact .inr ⟨value, List.mem_cons_self, hmeans⟩
        · exact .inr ⟨item, List.mem_cons_of_mem _ hitem, hmeans⟩
      next => cases hset

theorem exists_mem_of_setAll (hset : setAll set draft given = .ok final)
    (hstep : ∀ key value, (key, value) ∈ given → ∀ draft next a, set draft key value = .ok next →
      get next = some a → get draft = some a ∨ key = name ∧ means value a)
    (hnone : get draft = none) (hget : get final = some a) :
    ∃ value, (name, value) ∈ given ∧ means value a := by
  refine (mem_of_setAll hset hstep hget).resolve_left fun hbefore => ?_
  rw [hnone] at hbefore
  cases hbefore

end Found

theorem Presents.gives_pair {first second : String} {a b : Json} (hne : first ≠ second)
    (hpresents : Presents [first, second] given value) (hfirst : (first, a) ∈ given)
    (hsecond : (second, b) ∈ given) : Gives [(first, a), (second, b)] value := by
  refine hpresents.gives (by simpa using hne) rfl fun field hfield => ?_
  simp only [List.mem_cons, List.not_mem_nil, or_false] at hfield
  rcases hfield with rfl | rfl
  · exact hfirst
  · exact hsecond

/-- A structure of two fields is read if they can be taken up in either order. -/
theorem Gives.foldFields_pair {first second : String} {a b : Json}
    (hgives : Gives [(first, a), (second, b)] value)
    (hforward : setAll set draft [(first, a), (second, b)] = .ok final)
    (hbackward : setAll set draft [(second, b), (first, a)] = .ok final) :
    value.foldFields [first, second] set draft = .ok final := by
  obtain ⟨given, hpresents, hperm⟩ := hgives
  refine (hpresents.foldFields draft).trans ?_
  rcases List.perm_pair.mp hperm with rfl | rfl
  · exact hforward
  · exact hbackward

end Tabular.Json
