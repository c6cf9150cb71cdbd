import OntologyGuard.Context
import OntologyGuard.Proofs.Data.OrderedMap

namespace OntologyGuard.Context

theorem namespace?_populate (c : Context) (bindings : List (String × String)) (qualifier : String) :
    (c.populate bindings).namespace? qualifier =
      (bindings.reverse.lookup qualifier).or (c.namespace? qualifier) := by
  induction bindings generalizing c with
  | nil => simp [populate]
  | cons binding rest ih =>
    have hbind : (c.bind binding.1 binding.2).namespace? qualifier =
        if qualifier = binding.1 then some binding.2 else c.namespace? qualifier :=
      OrderedMap.get?_insert c.namespaces binding.1 binding.2 qualifier
    have hlast : [binding].lookup qualifier =
        if qualifier = binding.1 then some binding.2 else none :=
      OrderedMap.lookup_cons_if qualifier binding.1 binding.2 []
    rw [show c.populate (binding :: rest) = (c.bind binding.1 binding.2).populate rest from rfl,
      ih, List.reverse_cons, List.lookup_append, hbind, hlast]
    split <;> simp

theorem namespace?_ofBindings (bindings : List (String × String)) (qualifier : String) :
    (ofBindings bindings).namespace? qualifier =
      (standardBindings ++ bindings).reverse.lookup qualifier := by
  have hstandard : standard.namespace? qualifier = standardBindings.reverse.lookup qualifier := by
    rw [standard, namespace?_populate]
    exact Option.or_none
  rw [ofBindings, namespace?_populate, hstandard, List.reverse_append, List.lookup_append]

end OntologyGuard.Context
