import Stencil.Proofs.Value.Merging
import Stencil.Template.Resolver

/-!
# What a registry holds

Under each name a registry holds the namespace that was registered last: adding a namespace and
extending by a registry replace what they bring in, and leave the other names alone.
-/

namespace Stencil.Registry

theorem get?_adding (r : Registry) (ns : Namespace) (name : String) :
    (r.adding ns).get? name = if name = ns.name then some ns else r.get? name := by
  simp [adding, register, get?, Table.get?, Table.insert, Entries.get?_insert]

theorem get?_extend (r added : Registry) (name : String) :
    (r.extend added).get? name = (added.get? name).or (r.get? name) :=
  Table.get?_insertAll_entries r.table added.table name

/-- What was added to a registry is found under its own name, and all else was there before. -/
theorem get?_foldl_adding {namespaces : List Namespace} {r : Registry} {name : String}
    {ns : Namespace} (h : (namespaces.foldl adding r).get? name = some ns) :
    (ns ∈ namespaces ∧ ns.name = name) ∨ r.get? name = some ns := by
  induction namespaces generalizing r with
  | nil => exact Or.inr h
  | cons first rest ih =>
    rcases ih h with ⟨hmem, hname⟩ | hfirst
    · exact Or.inl ⟨List.mem_cons_of_mem _ hmem, hname⟩
    · rw [get?_adding] at hfirst
      split at hfirst
      · rename_i hname
        cases hfirst
        exact Or.inl ⟨List.mem_cons_self, hname.symm⟩
      · exact Or.inr hfirst

/-- A registry of given namespaces holds no others, each under its own name. -/
theorem mem_of_get?_ofList {namespaces : List Namespace} {name : String} {ns : Namespace}
    (h : (ofList namespaces).get? name = some ns) : ns ∈ namespaces ∧ ns.name = name := by
  rcases get?_foldl_adding h with hmem | hempty
  · exact hmem
  · cases hempty

theorem get?_standard_faker (settings : Settings) (sources : Sources) :
    (standard settings sources).get? "faker" = some sources.catalog.functions := by
  simp [standard, ofList, get?_adding, Catalog.functions, Arithmetic.functions,
    Calendar.functions, Randomness.functions, Environment.functions]

theorem get?_standard_math (settings : Settings) (sources : Sources) :
    (standard settings sources).get? "math" = some Arithmetic.functions := by
  simp [standard, ofList, get?_adding, Catalog.functions, Arithmetic.functions,
    Calendar.functions, Randomness.functions, Environment.functions]

end Stencil.Registry
