import LinkedNotes.Server.Uri

/-!
# What is known by URI

Values that belong to documents, each URI at most once. Main statements: what was set is found, what
was removed is not, and other URIs are left alone.
-/

namespace LinkedNotes

/-- Values by URI. -/
abbrev UriMap (α : Type) := List (Uri × α)

namespace UriMap

variable {α : Type}

/-- The value of a URI. -/
def get? (map : UriMap α) (uri : Uri) : Option α :=
  (map.find? (·.1 = uri)).map (·.2)

/-- The map without a URI. -/
def erase (map : UriMap α) (uri : Uri) : UriMap α :=
  map.filter (·.1 ≠ uri)

/-- The map with a value for a URI in place of an older one. -/
def set (map : UriMap α) (uri : Uri) (value : α) : UriMap α :=
  (uri, value) :: map.erase uri

@[simp]
theorem get?_nil (uri : Uri) : get? ([] : UriMap α) uri = none :=
  rfl

@[simp]
theorem get?_erase_self (map : UriMap α) (uri : Uri) : (map.erase uri).get? uri = none := by
  simp [get?, erase]

theorem get?_erase_of_ne (map : UriMap α) {uri other : Uri} (h : other ≠ uri) :
    (map.erase uri).get? other = map.get? other := by
  simp only [get?, erase, List.find?_filter]
  congr 2
  funext entry
  by_cases ho : entry.1 = other <;> simp [ho, h]

@[simp]
theorem get?_set_self (map : UriMap α) (uri : Uri) (value : α) :
    (map.set uri value).get? uri = some value := by
  simp [get?, set]

theorem get?_set_of_ne (map : UriMap α) {uri other : Uri} (h : other ≠ uri) (value : α) :
    (map.set uri value).get? other = map.get? other := by
  rw [← get?_erase_of_ne map h]
  simp [get?, set, Ne.symm h]

end UriMap
end LinkedNotes
