import FazerBridge.CatalogSync.Absence
import FazerBridge.FazerCards.Feed
import Mathlib.Data.Rat.Encodable

/-!
# From the shelves of the supplier to its rows

A pull reads the feed of the supplier into its rows.  An item whose hash is the one of its row
is not copied, so a row is only as good as the hash it bears: where hashes tell prices, the
rows of the supplier have the prices their hashes tell, after any run (`Sound.run`), and a
pull against a supplier that serves its catalogues leaves a row for every offer on sale, with
its price (`on_sale_shelved`).
-/

namespace FazerBridge

namespace SupplierCatalogSync

variable {sync : SupplierCatalogSync} {supplierId : ℕ} {old : Table SupplierProduct.id}
  {items : List SupplierItem} {item : SupplierItem} {key : ItemKey}

/-- The row of an item bears its hash, and its price unless the hash was there before. -/
structure Bears (sync : SupplierCatalogSync) (supplierId : ℕ) (old : List SupplierProduct)
    (item : SupplierItem) (row : SupplierProduct) : Prop where
  natural : natural row = (supplierId, item.key)
  hash : row.contentHash = sync.contentHash item
  price : row.priceSupplier = item.price ∨ ∃ o ∈ old,
    SupplierCatalogSync.natural o = (supplierId, item.key) ∧
      o.contentHash = sync.contentHash item ∧ row.priceSupplier = o.priceSupplier

/-- An item that was not seen before writes its row. -/
theorem upsert_bears (sync : SupplierCatalogSync) (supplierId : ℕ) {pull : Pull}
    (unseen : item.key ∉ pull.seen) :
    ∃ row, (sync.upsert supplierId pull item).rows = pull.rows.save row ∧
      sync.Bears supplierId pull.rows.rows item row := by
  unfold upsert
  rw [if_neg unseen]
  split
  · exact ⟨_, rfl, rfl, rfl, .inl rfl⟩
  · rename_i row found
    have mem := List.mem_of_find?_eq_some found
    have same := List.find?_some found
    simp only [decide_eq_true_eq] at same
    have own : natural row = (supplierId, item.key) := Prod.ext same.1 same.2
    refine ⟨_, rfl, ?_⟩
    by_cases unchanged : row.contentHash = sync.contentHash item
    · rw [if_neg (not_not.mpr unchanged)]
      exact ⟨own, unchanged, .inr ⟨row, mem, own, unchanged, rfl⟩⟩
    · rw [if_pos unchanged]
      exact ⟨own, rfl, .inl rfl⟩

/-- The first item of a key in the feed makes the row of the key. -/
theorem row_of_first (sync : SupplierCatalogSync) (supplierId : ℕ)
    (unique : (old.rows.map natural).Nodup)
    (first : items.find? (fun item => item.key = key) = some item) :
    ∃ row ∈ (items.foldl (sync.upsert supplierId) ⟨old, [], []⟩).rows.rows,
      sync.Bears supplierId old.rows item row := by
  induction items using List.reverseRecOn with
  | nil => cases first
  | append_singleton items other ih =>
      have pulled : Pulled supplierId old items _ := pulled_foldl sync unique items
      rw [List.foldl_append]
      change ∃ row ∈ (sync.upsert supplierId
        (items.foldl (sync.upsert supplierId) ⟨old, [], []⟩) other).rows.rows, _
      rw [List.find?_append] at first
      cases earlier : items.find? (fun item => item.key = key) with
      | some found =>
          rw [earlier] at first
          obtain rfl : found = item := Option.some.inj first
          obtain ⟨r, there, bears⟩ := ih earlier
          rcases upsert_cases sync supplierId (items.foldl (sync.upsert supplierId) ⟨old, [], []⟩)
            other with ⟨-, rows, -⟩ | ⟨unseen, -, row, rows, takes⟩
          · exact ⟨r, rows ▸ there, bears⟩
          · -- a row of a key that was seen is not written again
            refine ⟨r, rows ▸ Table.mem_save.mpr (.inr ⟨there, fun overwritten => ?_⟩), bears⟩
            rcases takes.place with free | ⟨b, written, ident⟩
            · exact (free r there).1 overwritten
            · rw [identity, identity, Prod.mk.injEq] at ident
              obtain rfl := Table.eq_of_key_eq _ there written (overwritten.trans ident.1.symm)
              have same := bears.natural.symm.trans (ident.2.trans takes.natural)
              rw [← (Prod.mk.inj same).2] at unseen
              exact unseen ((pulled.seen _).mpr
                (List.mem_map_of_mem (List.mem_of_find?_eq_some earlier)))
      | none =>
          rw [earlier] at first
          have own : other = item ∧ other.key = key := by simpa [and_comm] using first
          obtain ⟨rfl, rfl⟩ := own
          have unseen : other.key ∉ (items.foldl (sync.upsert supplierId) ⟨old, [], []⟩).seen := by
            intro known
            obtain ⟨b, mem, same⟩ := List.mem_map.mp ((pulled.seen _).mp known)
            simpa [same] using List.find?_eq_none.mp earlier b mem
          obtain ⟨row, rows, bears⟩ := upsert_bears sync supplierId unseen
          refine ⟨row, rows ▸ Table.mem_save.mpr (.inl rfl), bears.natural, bears.hash, ?_⟩
          refine bears.price.imp_right fun hit => ?_
          obtain ⟨o, there, same, hash, price⟩ := hit
          obtain ⟨code, itsKey⟩ := Prod.mk.inj same
          exact ⟨o, pulled.untouched o there code (itsKey ▸ unseen), same, hash, price⟩

/-! ## What is on sale -/

/-- The hash of a row of the supplier tells its price. -/
def Tagged (sync : SupplierCatalogSync) (supplierId : ℕ) (rows : List SupplierProduct) : Prop :=
  ∀ row ∈ rows, row.supplierId = supplierId →
    ∀ item, row.contentHash = sync.contentHash item → row.priceSupplier = item.price

/-- The rows of the supplier after a pull of what is on sale. -/
structure Shelved (sync : SupplierCatalogSync) (supplierId : ℕ) (onSale : List (ItemKey × ℚ))
    (old rows : List SupplierProduct) : Prop where
  unique : (rows.map natural).Nodup
  tagged : sync.Tagged supplierId rows
  /-- an offer that is listed twice has the price of its first listing -/
  there : ∀ {key price}, onSale.lookup key = some price → ∃ row ∈ rows,
    natural row = (supplierId, key) ∧ row.priceSupplier = price ∧
      row.missingRuns = 0 ∧ row.isActive = true
  /-- a product no longer on sale has missed one more pull, or was off already -/
  gone : ∀ row ∈ rows, row.supplierId = supplierId → row.key ∉ onSale.map Prod.fst →
    (∃ o ∈ old, o.isActive = true ∧ row = sync.miss o) ∨ row ∈ old ∧ row.isActive = false

/-- The price found under a key is that of its first listing. -/
theorem first_of_lookup {price : ℚ}
    (found : (items.map fun item => (item.key, item.price)).lookup key = some price) :
    ∃ item, items.find? (fun item => item.key = key) = some item ∧ item.price = price := by
  induction items with
  | nil => cases found
  | cons item items ih =>
      rw [List.map_cons, List.lookup_cons] at found
      by_cases same : item.key = key
      · rw [same, beq_self_eq_true] at found
        exact ⟨item, by simp [same], Option.some.inj found⟩
      · rw [beq_false_of_ne (Ne.symm same)] at found
        obtain ⟨other, first, price⟩ := ih found
        exact ⟨other, by simpa [same] using first, price⟩

/-- A row with the hash of an item has its price, or the item was written. -/
theorem Bears.price_eq {old : List SupplierProduct} {row : SupplierProduct}
    (bears : sync.Bears supplierId old item row) (tagged : sync.Tagged supplierId old) :
    row.priceSupplier = item.price := by
  rcases bears.price with same | ⟨o, mem, own, hash, same⟩
  · exact same
  · exact same.trans (tagged o mem (Prod.mk.inj own).1 item hash)

/-- A pull keeps the keys apart. -/
theorem nodup_pulledRows (unique : (old.rows.map natural).Nodup) :
    ((sync.pulledRows supplierId old items).map natural).Nodup := by
  have pulled : Pulled supplierId old items _ := pulled_foldl sync unique items
  have missed : Missed sync supplierId _ old.rows _ := missed_missUnseen pulled.kept
  have naturals := congrArg (List.map Prod.snd) missed.identities
  rw [List.map_map, List.map_map] at naturals
  exact (naturals ▸ pulled.unique : (_ : List _).Nodup)

/-- Only a row of a key that was not seen is counted as missing. -/
theorem present_of_first (sync : SupplierCatalogSync) (supplierId : ℕ)
    (unique : (old.rows.map natural).Nodup)
    (first : items.find? (fun item => item.key = key) = some item) :
    ∃ row ∈ sync.pulledRows supplierId old items, sync.Bears supplierId old.rows item row ∧
      row.missingRuns = 0 ∧ row.isActive = true := by
  have pulled : Pulled supplierId old items _ := pulled_foldl sync unique items
  have missed : Missed sync supplierId _ old.rows _ := missed_missUnseen pulled.kept
  obtain ⟨row, mem, bears⟩ := row_of_first sync supplierId unique first
  obtain ⟨own, sameKey⟩ := Prod.mk.inj bears.natural
  have known : row.key ∈ items.map SupplierItem.key :=
    (show row.key = item.key from sameKey) ▸ List.mem_map_of_mem (List.mem_of_find?_eq_some first)
  obtain ⟨row', mem', same⟩ :=
    List.mem_map.mp (missed.identities.symm ▸ List.mem_map_of_mem (f := identity) mem)
  have itsKey : row'.key = row.key := (Prod.mk.inj (congrArg Prod.snd same)).2
  rcases missed.rows row' mem' with ⟨o, -, ⟨-, unseen, -⟩, rfl⟩ | ⟨there, -⟩
  · exact absurd ((pulled.seen _).mpr (itsKey ▸ known)) unseen
  · obtain rfl := Table.eq_of_key_eq _ there mem (congrArg Prod.fst same)
    exact ⟨row', mem', bears, pulled.present row' mem own ((pulled.seen _).mpr known)⟩

/-- A row that the feed does not list has missed one more run. -/
theorem gone_of_unlisted (unique : (old.rows.map natural).Nodup) {row : SupplierProduct}
    (mem : row ∈ sync.pulledRows supplierId old items) (own : row.supplierId = supplierId)
    (unlisted : row.key ∉ items.map SupplierItem.key) :
    (∃ o ∈ old.rows, o.isActive = true ∧ row = sync.miss o) ∨
      row ∈ old.rows ∧ row.isActive = false := by
  have pulled : Pulled supplierId old items _ := pulled_foldl sync unique items
  have missed : Missed sync supplierId _ old.rows _ := missed_missUnseen pulled.kept
  rcases missed.rows row mem with ⟨o, known, ⟨-, -, active⟩, same⟩ | ⟨mem, others⟩
  · exact .inl ⟨o, known, active, same⟩
  · have unseen := fun known => unlisted ((pulled.seen _).mp known)
    have mem := pulled.untouched row mem own unseen
    exact .inr ⟨mem, Bool.eq_false_iff.mpr fun active => others row mem ⟨own, unseen, active⟩ rfl⟩

/-- After a pull every hash still tells its price. -/
theorem tagged_pulledRows
    (tells : ∀ a b, sync.contentHash a = sync.contentHash b → a.price = b.price)
    (unique : (old.rows.map natural).Nodup) (tagged : sync.Tagged supplierId old.rows) :
    sync.Tagged supplierId (sync.pulledRows supplierId old items) := by
  intro row mem own item hash
  by_cases known : row.key ∈ items.map SupplierItem.key
  · obtain ⟨b, listed, same⟩ := List.mem_map.mp known
    obtain ⟨first, found⟩ : ∃ first, items.find? (fun item => item.key = row.key) = some first :=
      Option.isSome_iff_exists.mp (List.find?_isSome.mpr ⟨b, listed, by simp [same]⟩)
    obtain ⟨row', mem', bears, -⟩ :=
      present_of_first sync supplierId unique found
    have firstKey : first.key = row.key := by simpa using List.find?_some found
    obtain rfl := List.inj_on_of_nodup_map (nodup_pulledRows unique) mem' mem
      (bears.natural.trans (Prod.ext own.symm firstKey))
    exact (bears.price_eq tagged).trans (tells first item (bears.hash.symm.trans hash))
  · rcases gone_of_unlisted unique mem own known with ⟨o, there, -, rfl⟩ | ⟨there, -⟩
    · exact tagged o there own item hash
    · exact tagged row there own item hash

/-- A pull leaves the rows as its feed has it, whatever they were. -/
theorem shelved_pulledRows
    (tells : ∀ a b, sync.contentHash a = sync.contentHash b → a.price = b.price)
    (unique : (old.rows.map natural).Nodup) (tagged : sync.Tagged supplierId old.rows) :
    sync.Shelved supplierId (items.map fun item => (item.key, item.price)) old.rows
      (sync.pulledRows supplierId old items) where
  unique := nodup_pulledRows unique
  tagged := tagged_pulledRows tells unique tagged
  there := by
    intro key price found
    obtain ⟨item, first, rfl⟩ := first_of_lookup found
    obtain ⟨row, mem, bears, present⟩ :=
      present_of_first sync supplierId unique first
    have itsKey : item.key = key := by simpa using List.find?_some first
    exact ⟨row, mem, itsKey ▸ bears.natural, bears.price_eq tagged, present⟩
  gone row mem own unlisted := gone_of_unlisted unique mem own (by simpa using unlisted)

end SupplierCatalogSync

/-! ## Every run -/

namespace Service

open SupplierCatalogSync FeedAdapter

variable {W N : Type} [DecidableEq N] (service : Service W)

/-- No two rows share a key, and the hash of a row of the supplier tells its price. -/
structure Sound (bridge : Bridge W) : Prop where
  unique : (bridge.db.supplierProducts.rows.map natural).Nodup
  tagged : service.supplierCatalog.Tagged (service.supplierCatalog.supplierIdOf bridge.db)
    bridge.db.supplierProducts.rows

/-- A pull of any feed, whether it completes or not, or anything else that leaves suppliers
and their products alone. -/
inductive PullOrOther (bridge : Bridge W) : Bridge W → Prop
  | pull (w : W) (feed : Feed SupplierItem) :
    PullOrOther bridge (.left (service.pullSession bridge w feed))
  | other {bridge' : Bridge W} (products : bridge'.db.supplierProducts = bridge.db.supplierProducts)
    (suppliers : bridge'.db.suppliers = bridge.db.suppliers) : PullOrOther bridge bridge'

variable {service}

/-- A pull keeps the rows sound, whether it commits or not. -/
theorem Sound.pulled
    (tells : ∀ a b, service.supplierCatalog.contentHash a = service.supplierCatalog.contentHash b →
      a.price = b.price)
    {bridge : Bridge W} (sound : service.Sound bridge) (w : W) (feed : Feed SupplierItem) :
    service.Sound (.left (service.pullSession bridge w feed)) := by
  cases ended : (service.pullSession bridge w feed).result with
  | ok stats =>
      obtain ⟨rows, same⟩ := pullSession_returns ended
      refine ⟨?_, ?_⟩
      · change ((service.pullSession bridge w feed).db.supplierProducts.rows.map natural).Nodup
        rw [rows]
        exact nodup_pulledRows sound.unique
      · change service.supplierCatalog.Tagged
          (service.supplierCatalog.supplierIdOf (service.pullSession bridge w feed).db)
          (service.pullSession bridge w feed).db.supplierProducts.rows
        rw [rows, same]
        exact tagged_pulledRows tells sound.unique sound.tagged
  | error e =>
      have same : (Bridge.left (service.pullSession bridge w feed)).db = bridge.db :=
        pullSession_raises ended
      exact ⟨same ▸ sound.unique, same ▸ sound.tagged⟩

/-- So does everything that leaves suppliers and their products alone. -/
theorem Sound.step
    (tells : ∀ a b, service.supplierCatalog.contentHash a = service.supplierCatalog.contentHash b →
      a.price = b.price)
    {bridge bridge' : Bridge W} (sound : service.Sound bridge)
    (step : service.PullOrOther bridge bridge') : service.Sound bridge' := by
  cases step with
  | pull w feed => exact sound.pulled tells w feed
  | other products suppliers =>
      have same : service.supplierCatalog.supplierIdOf bridge'.db =
          service.supplierCatalog.supplierIdOf bridge.db := by
        unfold supplierIdOf
        rw [suppliers]
      exact ⟨products ▸ sound.unique, by rw [same, products]; exact sound.tagged⟩

/-- The rows are sound after any run. -/
theorem Sound.run
    (tells : ∀ a b, service.supplierCatalog.contentHash a = service.supplierCatalog.contentHash b →
      a.price = b.price)
    {start bridge : Bridge W} (sound : service.Sound start)
    (run : Relation.ReflTransGen service.PullOrOther start bridge) : service.Sound bridge := by
  induction run with
  | refl => exact sound
  | tail _ step ih => exact ih.step tells step

/-- After any run, a pull against a supplier that serves its catalogues ends, and when it
completes every offer on sale has a row with its price, active and not missing, and every
other active row of the supplier has missed one more pull; when it raises the database is as
it was. -/
theorem on_sale_shelved (service : Service W) (adapter : FeedAdapter W N)
    (tells : ∀ a b, service.supplierCatalog.contentHash a = service.supplierCatalog.contentHash b →
      a.price = b.price)
    {start bridge : Bridge W} (sound : service.Sound start)
    (run : Relation.ReflTransGen service.PullOrOther start bridge) {keys cards : Stocks}
    (servesKeys : adapter.Serves gameKeys keys) (servesCards : adapter.Serves giftCards cards)
    {fuel : ℕ} (enough : max keys.links.length cards.links.length < fuel) :
    let feed := adapter.iterProducts fuel bridge.world
    let left := service.pullSession bridge feed.world ⟨feed.items, none⟩
    feed.halt = .done ∧
      ((∃ stats, left.result = .ok stats) ∧
          service.supplierCatalog.Shelved (service.supplierCatalog.supplierIdOf bridge.db)
            (keys.categories.flatMap (adapter.sold gameKeys keys.shelves) ++
              cards.categories.flatMap (adapter.sold giftCards cards.shelves))
            bridge.db.supplierProducts.rows left.db.supplierProducts.rows ∨
        (∃ e, left.result = .error e) ∧ left.db = bridge.db) := by
  have sound : service.Sound bridge := sound.run tells run
  obtain ⟨done, tags, -⟩ := feed_complete adapter servesKeys servesCards enough bridge.world
  dsimp only at done tags ⊢
  refine ⟨done, ?_⟩
  cases ended : (service.pullSession bridge (adapter.iterProducts fuel bridge.world).world
      ⟨(adapter.iterProducts fuel bridge.world).items, none⟩).result with
  | ok stats =>
      rw [(pullSession_returns ended).1, ← tags]
      exact .inl ⟨⟨stats, rfl⟩, shelved_pulledRows tells sound.unique sound.tagged⟩
  | error e => exact .inr ⟨⟨e, rfl⟩, pullSession_raises ended⟩

end Service

namespace EchoStore

open FeedAdapter

/-- The service with a hash that tells the price. -/
def priceHashing : Service Time :=
  { service with
    supplierCatalog := { service.supplierCatalog with
      contentHash item := String.ofList (List.replicate (Encodable.encode item.price) '#') } }

theorem price_of_hash (a b : SupplierItem) (same :
    priceHashing.supplierCatalog.contentHash a = priceHashing.supplierCatalog.contentHash b) :
    a.price = b.price := by
  have lengths := congrArg String.length same
  simpa [priceHashing] using lengths

/-- A first pull. -/
def pulledStock : OfferSync.Left Time Stats :=
  priceHashing.pullSession unpulled 0 ⟨(stocked.iterProducts 2 (0 : Time)).items, none⟩

/-- One of three games on sale, with the price of its first listing. -/
theorem on_sale_shelved_stocked : ∃ row ∈ pulledStock.db.supplierProducts.rows,
    SupplierCatalogSync.natural row = (1, .gameKey, "doom", "k3") ∧ row.priceSupplier = 7 ∧
      row.missingRuns = 0 ∧ row.isActive = true := by
  have sound : priceHashing.Sound unpulled :=
    ⟨List.nodup_nil, fun row mem => absurd mem List.not_mem_nil⟩
  have enough : max gamesOnSale.links.length cardsOnSale.links.length < 2 := by decide
  obtain ⟨-, ⟨-, shelved⟩ | ⟨⟨e, raised⟩, -⟩⟩ := Service.on_sale_shelved priceHashing stocked
    price_of_hash sound .refl serves_games serves_cards enough
  · exact shelved.there (by decide +kernel)
  · have returned : pulledStock.result.isOk = true := by decide +kernel
    rw [show pulledStock.result = .error e from raised] at returned
    cases returned

end EchoStore

end FazerBridge
