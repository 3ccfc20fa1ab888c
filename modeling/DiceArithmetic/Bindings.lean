/-!
# Bindings

Names with values, in the order in which the names came. Binding a name anew changes its value and
leaves it in its place. The lemmas say what each operation does to the value of a name.
-/

namespace DiceArithmetic

/-- Distinct names with their values, in order. -/
structure Bindings (α : Type) where
  entries : List (String × α)
  distinct : (entries.map Prod.fst).Nodup
  deriving DecidableEq, Repr

namespace Bindings

variable {α β ε : Type}

/-- No names at all. -/
def empty : Bindings α :=
  ⟨[], List.nodup_nil⟩

instance : Inhabited (Bindings α) :=
  ⟨empty⟩

/-- The names, in order. -/
def names (bindings : Bindings α) : List String :=
  bindings.entries.map Prod.fst

/-- The value of a name. -/
def get? (bindings : Bindings α) (name : String) : Option α :=
  bindings.entries.lookup name

/-- Gives a name a value: in its place if it is bound already, behind all others if not. -/
def set (bindings : Bindings α) (name : String) (value : α) : Bindings α :=
  if h : name ∈ bindings.names then
    { entries := bindings.entries.map fun entry ↦
        (entry.1, if entry.1 = name then value else entry.2)
      distinct := by simpa [Function.comp_def] using bindings.distinct }
  else
    { entries := bindings.entries ++ [(name, value)]
      distinct := by grind [names, bindings.distinct] }

/-- Takes a name away, if it is there. -/
def erase (bindings : Bindings α) (name : String) : Bindings α :=
  { entries := bindings.entries.filter (·.1 ≠ name)
    distinct := bindings.distinct.sublist (List.filter_sublist.map Prod.fst) }

/-- Binds these names in turn. -/
def ofList (entries : List (String × α)) : Bindings α :=
  entries.foldl (fun bindings (name, value) ↦ bindings.set name value) empty

/-- Changes every value. -/
def map (f : α → β) (bindings : Bindings α) : Bindings β :=
  { entries := bindings.entries.map fun entry ↦ (entry.1, f entry.2)
    distinct := by simpa [Function.comp_def] using bindings.distinct }

/-- Applies a fallible function to the values of these entries in turn, up to the first failure. The
names stay as they are. -/
def traverseEntries (f : String → α → Except ε β) :
    (entries : List (String × α)) →
      Except ε { results : List (String × β) // results.map Prod.fst = entries.map Prod.fst }
  | [] => .ok ⟨[], rfl⟩
  | (name, value) :: rest =>
      match f name value with
      | .error error => .error error
      | .ok result =>
          match traverseEntries f rest with
          | .error error => .error error
          | .ok ⟨results, same⟩ => .ok ⟨(name, result) :: results, by simp [same]⟩

/-- Applies a fallible function to every value in turn, up to the first failure. -/
def traverse (f : String → α → Except ε β) (bindings : Bindings α) : Except ε (Bindings β) :=
  match traverseEntries f bindings.entries with
  | .error error => .error error
  | .ok ⟨results, same⟩ => .ok ⟨results, same ▸ bindings.distinct⟩

/-- The entries in the order of their names' code points. -/
def sorted (bindings : Bindings α) : List (String × α) :=
  bindings.entries.mergeSort fun left right ↦ left.1 ≤ right.1

@[simp] theorem get?_empty (name : String) : (empty : Bindings α).get? name = none :=
  rfl

/-- Changing the values of entries by their names changes what is found in the same way. -/
theorem lookup_map (f : String → α → β) (entries : List (String × α)) (name : String) :
    (entries.map fun entry ↦ (entry.1, f entry.1 entry.2)).lookup name =
      (entries.lookup name).map (f name) := by
  induction entries with
  | nil => rfl
  | cons entry rest ih =>
      obtain ⟨bound, value⟩ := entry
      grind

theorem get?_map (f : α → β) (bindings : Bindings α) (name : String) :
    (bindings.map f).get? name = (bindings.get? name).map f :=
  lookup_map (fun _ ↦ f) bindings.entries name

/-- A name has no value exactly if it is not among the names. -/
theorem get?_eq_none_iff (bindings : Bindings α) (name : String) :
    bindings.get? name = none ↔ name ∉ bindings.names := by
  simp only [get?, names, List.lookup_eq_none_iff]
  grind

/-- A name with its value is an entry. -/
theorem mem_entries_of_get? {bindings : Bindings α} {name : String} {value : α}
    (h : bindings.get? name = some value) : (name, value) ∈ bindings.entries := by
  obtain ⟨earlier, later, hentries, -⟩ := List.lookup_eq_some_iff.1 h
  rw [hentries]
  exact List.mem_append_right _ List.mem_cons_self

/-- Each result of a fallible function that never failed comes from an entry of the same name. -/
theorem exists_mem_of_traverseEntries {f : String → α → Except ε β} {entries : List (String × α)}
    {results : { results : List (String × β) // results.map Prod.fst = entries.map Prod.fst }}
    (h : traverseEntries f entries = .ok results) :
    ∀ entry ∈ results.val,
      ∃ value, (entry.1, value) ∈ entries ∧ f entry.1 value = .ok entry.2 := by
  induction entries with
  | nil =>
      cases h
      exact fun _ hmem ↦ absurd hmem List.not_mem_nil
  | cons entry rest ih =>
      obtain ⟨name, value⟩ := entry
      rw [traverseEntries] at h
      split at h
      next => cases h
      next result hresult =>
          split at h
          next => cases h
          next behind same hbehind =>
              cases h
              refine List.forall_mem_cons.2 ⟨⟨value, List.mem_cons_self, hresult⟩, ?_⟩
              intro entry hmem
              obtain ⟨value, hvalue, heq⟩ := ih hbehind entry hmem
              exact ⟨value, List.mem_cons_of_mem _ hvalue, heq⟩

/-- A name is bound to what the fallible function makes of what it was bound to. -/
theorem exists_mem_of_traverse {f : String → α → Except ε β} {bindings : Bindings α}
    {results : Bindings β} (h : bindings.traverse f = .ok results) {name : String} {result : β}
    (hresult : results.get? name = some result) :
    ∃ value, (name, value) ∈ bindings.entries ∧ f name value = .ok result := by
  unfold traverse at h
  split at h
  next => cases h
  next entries same hentries =>
      cases h
      exact exists_mem_of_traverseEntries hentries _ (mem_entries_of_get? hresult)

theorem get?_set (bindings : Bindings α) (name other : String) (value : α) :
    (bindings.set name value).get? other =
      if other = name then some value else bindings.get? other := by
  have absent := get?_eq_none_iff bindings name
  simp only [get?] at absent
  unfold set
  split
  · simp only [get?, lookup_map fun bound old ↦ if bound = name then value else old]
    cases found : bindings.entries.lookup other <;> grind
  · grind [get?]

theorem get?_erase (bindings : Bindings α) (name other : String) :
    (bindings.erase name).get? other = if other = name then none else bindings.get? other := by
  simp only [get?, erase]
  induction bindings.entries with
  | nil => simp
  | cons entry rest ih => grind

end Bindings

end DiceArithmetic
