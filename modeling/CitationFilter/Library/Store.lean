import CitationFilter.Library.Distinct
import CitationFilter.Library.Item

/-!
# The store

The store holds what the engine may ask for: the items of the library and the locales. Items are
looked up by id, and where several have the same id the first one counts.
-/

namespace CitationFilter

/-- The items and the locales that the engine may ask for. -/
structure Store where
  /-- The items in library order. -/
  items : List Item
  /-- The data of each language. -/
  locales : List (String × String)
deriving Repr

namespace Store

/-- The place of the first item with an id. -/
def position? (store : Store) (id : String) : Option (Fin store.items.length) :=
  store.items.findFinIdx? fun item ↦ item.id = id

/-- Looks up an item. -/
def retrieve (store : Store) (id : String) : Except Error Item :=
  match store.position? id with
  | some i => .ok store.items[i]
  | none => .error (.itemNotFound id)

/-- Looks up the data of a language. -/
def locale? (store : Store) (lang : String) : Option String := store.locales.lookup lang

/-- All ids in library order, each once. -/
def ids (store : Store) : List String := distinct (store.items.map Item.id)

end Store

end CitationFilter
