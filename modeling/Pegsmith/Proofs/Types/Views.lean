import Pegsmith.Types.Catalog

set_option autoImplicit false

namespace Pegsmith

namespace Catalog

/-- The views of a type. A list holds what it is declared to hold, or else the one argument that is
written in it. -/
inductive Views (c : Catalog) (t : HostType) : TypeView → Prop where
  | text : Views c t .text
  | rawToken : Views c t .rawToken
  | map : Views c t .map
  | named : Views c t .named
  | unit (written : t.tupleElems? = some []) : Views c t .unit
  | tuple {members : List HostType} (written : t.tupleElems? = some members) :
      Views c t (.tuple members)
  | declared {d : DeclaredType} {item : HostType} (found : c.find? t = some d)
      (items : d.listOf = some item) : Views c t (.list item)
  | list {arg : HostType} (written : t.typeArgs = [arg]) : Views c t (.list arg)
  | optional {arg : HostType} (written : t.typeArgs = [arg]) : Views c t (.optional arg)

theorem views_viewOfName (c : Catalog) (t : HostType) (head : String) :
    c.Views t (viewOfName head t.typeArgs) := by
  unfold viewOfName
  split
  · next arg written =>
    split
    · exact .list written
    · split
      · exact .optional written
      · exact .named
  · exact .named

theorem views_view (c : Catalog) (t : HostType) : c.Views t (c.view t) := by
  unfold view
  split
  · next written => exact .unit written
  · next written => exact .tuple written
  · exact .named
  · next head _ _ =>
    dsimp only
    split
    · exact .text
    · split
      · exact .rawToken
      · split
        · exact .map
        · split
          · next item items =>
            cases found : c.find? t with
            | none =>
              rw [found] at items
              cases items
            | some d =>
              rw [found] at items
              exact .declared found items
          · exact views_viewOfName c t head

theorem tupleElems?_of_view {c : Catalog} {t : HostType} (unit : c.view t = .unit) :
    t.tupleElems? = some [] := by
  have views := c.views_view t
  rw [unit] at views
  cases views with
  | unit written => exact written

end Catalog

end Pegsmith
