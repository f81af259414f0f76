import FazerBridge.G2AClient.Offers
import FazerBridge.OfferSync.AtomicStore

/-!
# What a store reads in a body

The offer or the change that a create or an update was called with, the price to the cent
(`draftOf_createBody`, `changeOf_updateBody`).
-/

namespace FazerBridge

open OfferSync

/-- A change of an offer. -/
structure Change where
  price : Option ℚ
  inventory : Option ℤ
  active : Option Bool
  deriving DecidableEq, Repr

def Change.apply (change : Change) (x : Shown) : Shown :=
  x.patch change.price change.inventory change.active

/-- It sets absolute values: making it again changes nothing. -/
theorem Change.apply_apply (change : Change) (x : Shown) :
    change.apply (change.apply x) = change.apply x := by
  obtain ⟨price, inventory, active⟩ := change
  cases price <;> cases inventory <;> cases active <;> rfl

namespace Json

def asPrice : Json → Option ℚ
  | .object price =>
    match get price "retail" with
    | .string retail => some (Numeral.value retail.toList)
    | _ => none
  | _ => none

def asSize : Json → Option ℤ
  | .object inventory => (get inventory "size").asInt
  | _ => none

def asBool : Json → Option Bool
  | .bool value => some value
  | _ => none

/-- The offer in the body of a create. -/
def draftOf : Json → Option Shown
  | .object body =>
    match get body "variants" with
    | .array [.object variant] =>
      match get variant "productId" with
      | .string productExtId => do
        let price ← (get variant "price").asPrice
        let inventory ← (get variant "inventory").asSize
        let active ← (get variant "active").asBool
        pure ⟨productExtId, price, inventory, active⟩
      | _ => none
    | _ => none
  | _ => none

/-- The change in the body of an update that archives nothing. -/
def changeOf : Json → Option Change
  | .object body =>
    match get body "variant" with
    | .object variant =>
      if (variant.lookup "archive").isSome then none
      else some
        { price := (get variant "price").asPrice
          inventory := (get variant "inventory").asSize
          active := (get variant "active").asBool }
    | _ => none
  | _ => none

theorem asPrice_retail (price : ℚ) :
    asPrice (G2AStore.retail price) = some (Pricing.quantize (1 / 100) price) := by
  rw [← value_twoPlaces, ← String.toList_ofList (l := twoPlaces price)]
  rfl

theorem asSize_size (inventorySize : ℤ) : asSize (G2AStore.size inventorySize) = some inventorySize :=
  asInt_toString inventorySize

/-- A create asks for the offer it was called with, its price to the cent. -/
theorem draftOf_createBody (productExtId : String) (price : ℚ) (inventorySize : ℤ) (active : Bool)
    (visibility : String) :
    draftOf (G2AStore.createBody productExtId price inventorySize active visibility) =
      some ⟨productExtId, Pricing.quantize (1 / 100) price, inventorySize, active⟩ := by
  have read : draftOf (G2AStore.createBody productExtId price inventorySize active visibility) =
      (do
        let price ← asPrice (G2AStore.retail price)
        let inventory ← asSize (G2AStore.size inventorySize)
        let active ← asBool (.bool active)
        pure ⟨productExtId, price, inventory, active⟩) := rfl
  rw [read, asPrice_retail, asSize_size]
  rfl

/-- An update asks for the changes it was called with, and for no other. -/
theorem changeOf_updateBody (price : Option ℚ) (inventorySize : Option ℤ) (active : Option Bool)
    (visibility : Option String) :
    changeOf (G2AStore.updateBody
        (G2AStore.variant price inventorySize active none visibility)) =
      some ⟨price.map (Pricing.quantize (1 / 100)), inventorySize, active⟩ := by
  have read : changeOf (G2AStore.updateBody
      (G2AStore.variant price inventorySize active none visibility)) =
      some ⟨((price.map G2AStore.retail).getD .null).asPrice,
        ((inventorySize.map G2AStore.size).getD .null).asSize,
        ((active.map Json.bool).getD .null).asBool⟩ := by
    cases price <;> cases inventorySize <;> cases active <;> cases visibility <;> rfl
  have priced : ((price.map G2AStore.retail).getD .null).asPrice =
      price.map (Pricing.quantize (1 / 100)) := by
    cases price with
    | none => rfl
    | some price => exact asPrice_retail price
  have sized : ((inventorySize.map G2AStore.size).getD .null).asSize = inventorySize := by
    cases inventorySize with
    | none => rfl
    | some count => exact asSize_size count
  have activated : ((active.map Json.bool).getD .null).asBool = active := by
    cases active <;> rfl
  rw [read, priced, sized, activated]

end Json

end FazerBridge
