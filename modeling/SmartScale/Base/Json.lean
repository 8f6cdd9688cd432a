import Mathlib.Data.List.Basic
import Mathlib.Data.Rat.Init

/-!
JSON documents whose objects keep their members in order and are searched from the
front, without regard to the case of the keys.

* `getItem?` finds a member; `replaceItem` and `mapItem` change the first one a search
  finds.
* `getItem?_replaceItem`, `getItem?_mapItem`: a search then finds what was put there.
-/

namespace SmartScale

inductive Json where
  | null
  | bool (b : Bool)
  | number (v : ℚ)
  | string (s : String)
  | array (items : List Json)
  | object (members : List (String × Json))

namespace Json

/-- A member with the key, which is compared without regard to case. -/
def hasKey (key : String) (member : String × Json) : Bool :=
  member.1.toList.map Char.toLower == key.toList.map Char.toLower

/-- Change the first member with a key. -/
def mapMember (key : String) (f : String × Json → String × Json) :
    List (String × Json) → List (String × Json)
  | [] => []
  | m :: ms => if hasKey key m then f m :: ms else m :: mapMember key f ms

/-- The value of the first member with a key; a document that is no object has none. -/
def getItem? (key : String) : Json → Option Json
  | .object members => (members.find? (hasKey key)).map Prod.snd
  | _ => none

/-- Replace the first member with a key, its name included; without one, nothing. -/
def replaceItem (key : String) (item : Json) : Json → Json
  | .object members => .object (mapMember key (fun _ => (key, item)) members)
  | doc => doc

/-- Change the value of the first member with a key in place. -/
def mapItem (key : String) (f : Json → Json) : Json → Json
  | .object members => .object (mapMember key (fun m => (m.1, f m.2)) members)
  | doc => doc

def addItem (key : String) (item : Json) : Json → Json
  | .object members => .object (members ++ [(key, item)])
  | doc => doc

section Members

variable {key : String} {members : List (String × Json)} {doc item : Json}

theorem hasKey_self : hasKey key (key, item) = true := beq_self_eq_true _

theorem find?_mapMember {f : String × Json → String × Json}
    (keeps : ∀ m, hasKey key m = true → hasKey key (f m) = true) :
    (mapMember key f members).find? (hasKey key) = (members.find? (hasKey key)).map f := by
  induction members with
  | nil => rfl
  | cons m members ih =>
      by_cases here : hasKey key m = true
      · rw [mapMember, if_pos here, List.find?_cons_of_pos (keeps m here),
          List.find?_cons_of_pos here]
        rfl
      · rw [mapMember, if_neg here, List.find?_cons_of_neg here, List.find?_cons_of_neg here]
        exact ih

theorem getItem?_replaceItem :
    getItem? key (replaceItem key item doc) = (getItem? key doc).map fun _ => item := by
  cases doc with
  | object members =>
      simp only [getItem?, replaceItem, Option.map_map]
      rw [find?_mapMember fun _ _ => hasKey_self, Option.map_map]
      rfl
  | _ => rfl

theorem getItem?_mapItem {f : Json → Json} :
    getItem? key (mapItem key f doc) = (getItem? key doc).map f := by
  cases doc with
  | object members =>
      have keeps (m : String × Json) (here : hasKey key m = true) :
          hasKey key (m.1, f m.2) = true := here
      simp only [getItem?, mapItem, Option.map_map]
      rw [find?_mapMember keeps, Option.map_map]
      rfl
  | _ => rfl

end Members

end Json

end SmartScale
