import FazerBridge.OfferSync.SentPrices

/-!
# The rate behind a price

`rate_spec` says what a call of `FxProvider.rate` can do: answer the pinned rate, a
cached one that is young enough, a fetched one that it also caches, or raise and
cache nothing.  So every row of a table that such calls wrote is positive
(`History.positive`), and a markup price of a session rests on a positive rate that
was live at its turn (`OfferSync.sent_at_live_rate`).
-/

namespace FazerBridge

namespace Pricing

open Prog

variable {W : Type} {source : Source W} {s t : Rates W}

/-! ## The newest row -/

/-- The row is one of the currency pair. -/
def Source.OfPair (source : Source W) (row : FxRate) : Prop :=
  row.base = source.settings.supplierCurrency ∧ row.quote = source.settings.storeCurrency

instance (source : Source W) (row : FxRate) : Decidable (source.OfPair row) :=
  inferInstanceAs (Decidable (_ ∧ _))

/-- The newer of the best row so far and the next. -/
def newer (best : Option FxRate) (row : FxRate) : Option FxRate :=
  match best with
  | none => some row
  | some b => if b.fetchedAt < row.fetchedAt then some row else some b

/-- The newer of two rows is one of them, and neither is newer than it. -/
theorem le_newer {best : Option FxRate} {row r : FxRate} (picked : newer best row = some r) :
    (best = some r ∨ r = row) ∧ row.fetchedAt ≤ r.fetchedAt ∧
      ∀ b ∈ best, b.fetchedAt ≤ r.fetchedAt := by
  cases best with
  | none =>
      cases picked
      exact ⟨.inr rfl, le_rfl, nofun⟩
  | some b =>
      simp only [newer] at picked
      split at picked <;> cases picked
      · rename_i older
        refine ⟨.inr rfl, le_rfl, ?_⟩
        rintro _ ⟨⟩
        exact older.le
      · rename_i older
        refine ⟨.inl rfl, not_lt.mp older, ?_⟩
        rintro _ ⟨⟩
        exact le_rfl

/-- What a fold over rows picks is one of them, and none is newer. -/
theorem foldl_newer {rows : List FxRate} {best : Option FxRate} {row : FxRate}
    (picked : rows.foldl newer best = some row) :
    (best = some row ∨ row ∈ rows) ∧ (∀ r ∈ rows, r.fetchedAt ≤ row.fetchedAt) ∧
      ∀ b ∈ best, b.fetchedAt ≤ row.fetchedAt := by
  induction rows generalizing best with
  | nil =>
      refine ⟨.inl picked, nofun, ?_⟩
      rintro b same
      cases same.symm.trans picked
      exact le_rfl
  | cons next rest ih =>
      obtain ⟨found, newest, above⟩ := ih picked
      obtain ⟨b, chosen⟩ : ∃ b, newer best next = some b := by
        cases best with
        | none => exact ⟨_, rfl⟩
        | some b =>
            simp only [newer]
            split
            · exact ⟨_, rfl⟩
            · exact ⟨_, rfl⟩
      obtain ⟨origin, next_le, best_le⟩ := le_newer chosen
      have b_le := above b chosen
      refine ⟨?_, ?_, fun b' same => (best_le b' same).trans b_le⟩
      · rcases found with same | mem
        · cases chosen.symm.trans same
          exact origin.imp_right (List.mem_cons.mpr ∘ .inl)
        · exact .inr (List.mem_cons_of_mem next mem)
      · intro r mem
        rcases List.mem_cons.mp mem with rfl | mem
        · exact next_le.trans b_le
        · exact newest r mem

/-- The cached row is the newest one of the pair. -/
theorem cached_newest {rates : List FxRate} {row : FxRate}
    (found : cached source rates = some row) :
    row ∈ rates ∧ source.OfPair row ∧
      ∀ r ∈ rates, source.OfPair r → r.fetchedAt ≤ row.fetchedAt := by
  have picked : (rates.filter fun r => r.base = source.settings.supplierCurrency ∧
      r.quote = source.settings.storeCurrency).foldl newer none = some row := found
  obtain ⟨(⟨⟨⟩⟩ | mem), newest, -⟩ := foldl_newer picked
  obtain ⟨stored, pair⟩ := List.mem_filter.mp mem
  refine ⟨stored, of_decide_eq_true pair, fun r mem own => newest r ?_⟩
  exact List.mem_filter.mpr ⟨mem, by simpa using And.intro own.1 own.2⟩

/-! ## A call of the provider -/

/-- The row a fetched rate is cached in. -/
def Source.row (source : Source W) (rate : ℚ) (fetchedAt : Time) : FxRate :=
  ⟨source.settings.supplierCurrency, source.settings.storeCurrency, rate,
    source.settings.fxProviderUrl, fetchedAt⟩

/-- The FX provider answers the rate. -/
def Source.Answers (source : Source W) (w : W) (rate : ℚ) : Prop :=
  ∃ payload text, (source.fetch w).1 = .ok payload ∧ payload.rate = some (rate, text)

/-- A fetch caches nothing, and its rate is positive and the provider's. -/
theorem fetchRate_spec {r : Except String ℚ} (run : (fetchRate source).Runs s r t) :
    t.fxRates = s.fxRates ∧
      ∀ q, r = .ok q → source.Answers s.world q ∧ 0 < q := by
  unfold fetchRate at run
  have asked : ∀ {r t}, (ofState fun (s : Rates W) =>
      ((source.fetch s.world).1, { s with world := (source.fetch s.world).2 })).Runs s r t →
      r = (source.fetch s.world).1 ∧ t.fxRates = s.fxRates := by
    rintro _ _ ⟨⟩
    exact ⟨rfl, rfl⟩
  rcases runs_bind.mp run with ⟨payload, m, called, rest⟩ | ⟨e, called, rfl⟩
  · obtain ⟨answered, kept⟩ := asked called
    cases stated : payload.rate with
    | none =>
        rw [stated] at rest
        obtain ⟨rfl, rfl⟩ := runs_throw.mp rest
        exact ⟨kept, fun _ same => by cases same⟩
    | some priced =>
        obtain ⟨rate, text⟩ := priced
        rw [stated] at rest
        rcases runs_ite.mp rest with ⟨-, rest⟩ | ⟨positive, rest⟩
        · obtain ⟨rfl, rfl⟩ := runs_throw.mp rest
          exact ⟨kept, fun _ same => by cases same⟩
        · obtain ⟨rfl, rfl⟩ := runs_pure.mp rest
          refine ⟨kept, ?_⟩
          rintro _ ⟨⟩
          exact ⟨⟨payload, text, answered.symm, stated⟩, not_le.mp positive⟩
  · exact ⟨(asked called).2, fun _ same => by cases same⟩

/-- What a call of `FxProvider.rate` can do.  It refuses as stale exactly if there was a
cached rate to fall back on. -/
inductive Rated (source : Source W) (forceRefresh : Bool) (s : Rates W) :
    Except Exn ℚ → Rates W → Prop
  | pinned {q} (pin : source.settings.fxRateUsdEur = some q) : Rated source forceRefresh s (.ok q) s
  | fresh {row} (unpinned : source.settings.fxRateUsdEur = none) (unforced : forceRefresh = false)
      (newest : cached source s.fxRates = some row)
      (young : source.now s.world - row.fetchedAt < source.settings.fxMaxAgeHours * hour) :
      Rated source forceRefresh s (.ok row.rate) s
  | refused {error world} (stale : error.kind = .staleFxRate ↔
      forceRefresh = false ∧ (cached source s.fxRates).isSome) :
      Rated source forceRefresh s (.error (.pricing error)) ⟨s.fxRates, world⟩
  | unwritten {e world} : Rated source forceRefresh s (.error (.database e)) ⟨s.fxRates, world⟩
  | fetched {rate fetchedAt world} (unpinned : source.settings.fxRateUsdEur = none)
      (answered : source.Answers s.world rate) (positive : 0 < rate) :
      Rated source forceRefresh s (.ok rate) ⟨s.fxRates ++ [source.row rate fetchedAt], world⟩

/-- A call of the provider does one of these. -/
theorem rate_spec {forceRefresh : Bool} {r : Except Exn ℚ}
    (run : (rate source forceRefresh).Runs s r t) : Rated source forceRefresh s r t := by
  unfold rate at run
  cases pin : source.settings.fxRateUsdEur with
  | some pinned =>
      rw [pin] at run
      obtain ⟨rfl, rfl⟩ := runs_pure.mp run
      exact .pinned pin
  | none =>
      rw [pin] at run
      rw [runs_get_bind] at run
      generalize lookup : (if forceRefresh = true then none else cached source s.fxRates) = known
        at run
      have cachedOf : known.isSome ↔ forceRefresh = false ∧ (cached source s.fxRates).isSome := by
        rw [← lookup]
        cases forceRefresh <;> simp
      dsimp only at run
      split at run
      · rename_i fresh kept
        obtain ⟨rfl, rfl⟩ := runs_pure.mp run
        obtain ⟨rfl, young⟩ := Option.filter_eq_some_iff.mp kept
        split at lookup
        · cases lookup
        · rename_i unforced
          exact .fresh pin (Bool.not_eq_true _ ▸ unforced) lookup (of_decide_eq_true young)
      · rcases runs_bind.mp run with ⟨fetched, m, called, rest⟩ | ⟨e, called, rfl⟩
        · obtain ⟨result, rfl⟩ := Prod.mk.inj (runs_ofState.mp called)
          have fetching : (fetchRate source).Runs s fetched ((fetchRate source).exec s).2 :=
            Except.ok.inj result ▸ runs_exec ..
          obtain ⟨kept, answered⟩ := fetchRate_spec fetching
          generalize ((fetchRate source).exec s).2 = m at rest kept
          obtain ⟨rates, world⟩ := m
          cases kept
          cases fetched with
          | error message =>
              rcases runs_ite.mp rest with ⟨old, thrown⟩ | ⟨none_, thrown⟩
              · obtain ⟨rfl, rfl⟩ := runs_throw.mp thrown
                exact .refused (iff_of_true rfl (cachedOf.mp old))
              · obtain ⟨rfl, rfl⟩ := runs_throw.mp thrown
                exact .refused (iff_of_false nofun fun has => none_ (cachedOf.mpr has))
          | ok q =>
              obtain ⟨asked, positive⟩ := answered q rfl
              have flushed := runs_ofState.mp rest
              dsimp only at flushed
              split at flushed
              · cases flushed
                exact .fetched pin asked positive
              · cases flushed
                exact .unwritten
        · cases called

/-- A call that raises adds no row. -/
theorem rate_raises {forceRefresh : Bool} {e : Exn}
    (run : (rate source forceRefresh).Runs s (.error e) t) : t.fxRates = s.fxRates := by
  cases rate_spec run with
  | refused | unwritten => rfl

/-! ## The history of the table -/

/-- The tables that calls of `FxProvider.rate` leave behind, in any settings, at any
times, with any answers of the provider. -/
inductive History : List FxRate → Prop
  | empty : History []
  | called {W : Type} {source : Source W} {forceRefresh : Bool} {s t : Rates W} {r : Except Exn ℚ}
      (history : History s.fxRates) (run : (rate source forceRefresh).Runs s r t) :
      History t.fxRates

/-- Only positive rates are ever cached. -/
theorem History.positive {rates : List FxRate} (history : History rates) :
    ∀ row ∈ rates, 0 < row.rate := by
  induction history with
  | empty => nofun
  | called _ run ih =>
      cases rate_spec run with
      | pinned | fresh | refused | unwritten => exact ih
      | fetched _ _ positive =>
          intro row mem
          rcases List.mem_append.mp mem with mem | mem
          · exact ih row mem
          · rw [List.mem_singleton.mp mem]
            exact positive

/-! ## Live rates -/

/-- The rates a computation may use: one the provider answers now, or the newest
cached one of the pair while it is young. -/
inductive LiveRate (source : Source W) (s : Rates W) : ℚ → Prop
  | fetched {rate} (answered : source.Answers s.world rate) : LiveRate source s rate
  | cached {row} (stored : row ∈ s.fxRates) (pair : source.OfPair row)
      (newest : ∀ r ∈ s.fxRates, source.OfPair r → r.fetchedAt ≤ row.fetchedAt)
      (young : source.now s.world - row.fetchedAt < source.settings.fxMaxAgeHours * hour) :
      LiveRate source s row.rate

/-- A rate that is not pinned is positive and live. -/
theorem rate_live (unpinned : source.settings.fxRateUsdEur = none) (history : History s.fxRates)
    {forceRefresh : Bool} {q : ℚ} (run : (rate source forceRefresh).Runs s (.ok q) t) :
    0 < q ∧ LiveRate source s q := by
  cases rate_spec run with
  | pinned pin => cases unpinned.symm.trans pin
  | fresh _ _ newest young =>
      obtain ⟨stored, pair, above⟩ := cached_newest newest
      exact ⟨history.positive _ stored, .cached stored pair above young⟩
  | fetched _ answered positive => exact ⟨positive, .fetched answered⟩

variable {product : SupplierProduct} {mapping : ProductMapping} {storeProduct : StoreProduct}

/-- A price is fixed, or computed from the rate of one call. -/
theorem pricer_cases {r : Except Exn ℚ}
    (run : (source.pricer product mapping storeProduct).Runs s r t) :
    (∃ fixed, mapping.fixedPriceOverride = some fixed ∧ t = s) ∨
      mapping.fixedPriceOverride = none ∧ ∃ q, (rate source).Runs s q t ∧
        r = q.map fun rate => (priceAt source.settings rate product mapping storeProduct).finalPrice := by
  obtain ⟨breakdown, computed, rfl⟩ := runs_map.mp run
  unfold compute at computed
  cases fixed : mapping.fixedPriceOverride with
  | some fixed' =>
      rw [fixed] at computed
      exact .inl ⟨fixed', rfl, (runs_pure.mp computed).2⟩
  | none =>
      rw [fixed] at computed
      refine .inr ⟨rfl, ?_⟩
      rcases runs_bind.mp computed with ⟨rate, m, rated, priced⟩ | ⟨e, rated, rfl⟩
      · obtain ⟨rfl, rfl⟩ := runs_pure.mp priced
        exact ⟨.ok rate, rated, rfl⟩
      · exact ⟨.error e, rated, rfl⟩

/-- The markup price of an item at a positive live rate. -/
def AtLiveRate (source : Source W) (s : Rates W) (item : OfferSync.Item) (price : ℚ) : Prop :=
  item.mapping.fixedPriceOverride = none → ∃ rate, 0 < rate ∧ LiveRate source s rate ∧
    price = (priceAt source.settings rate item.supplierProduct item.mapping
      item.storeProduct).finalPrice

end Pricing

namespace OfferSync

variable {W : Type}

/-- With such a pricer a run keeps the rates a history, and its markup prices at live rates. -/
theorem guarantees_live {sync : OfferSync W} {source : Pricing.Source W}
    (priced : sync.pricer = source.pricer) (unpinned : source.settings.fxRateUsdEur = none) :
    sync.Guarantees Pricing.History (Pricing.AtLiveRate source) := by
  constructor
  · intro item rates r rates' history run
    rw [priced] at run
    rcases Pricing.pricer_cases run with ⟨-, -, rfl⟩ | ⟨-, q, rated, -⟩
    · exact history
    · exact .called history rated
  · intro item rates price rates' history run markup
    rw [priced] at run
    rcases Pricing.pricer_cases run with ⟨fixed, given, -⟩ | ⟨-, q, rated, answered⟩
    · cases markup.symm.trans given
    · cases q with
      | error e => cases answered
      | ok rate =>
          cases answered
          obtain ⟨positive, live⟩ := Pricing.rate_live unpinned history rated
          exact ⟨rate, positive, live, rfl⟩

/-- Every markup price a session sends was computed at its turn from a positive live
rate, and a rate call that raises adds no row. -/
theorem sent_at_live_rate (sync : OfferSync W) (source : Pricing.Source W)
    (priced : sync.pricer = source.pricer) (unpinned : source.settings.fxRateUsdEur = none)
    (db : Db) (history : Pricing.History db.fxRates) (count : Option ℕ) (dryRun : Bool) (world : W)
    (trace : List Entry) :
    Adds (sync.SentBy count dryRun (Pricing.AtLiveRate source) ⟨db, world, trace, []⟩) trace
      (sync.sessionScope (sync.run count dryRun) db world trace).trace ∧
    ∀ forceRefresh s e t, (Pricing.rate source forceRefresh).Runs s (.error e) t →
      t.fxRates = s.fxRates :=
  ⟨(guarantees_live priced unpinned).session db world trace history,
    fun _ _ _ _ => Pricing.rate_raises⟩

end OfferSync

namespace EchoStore

/-- A pricer whose provider answers 0.9. -/
def livePricing : Pricing.Source Time where
  settings := Settings.default
  fetch w := (.ok ⟨"\x7b'rates': \x7b'EUR': 0.9\x7d\x7d", some (9 / 10, "0.9")⟩, w)
  now := id
  flush w := (none, w)

def liveOffers : OfferSync Time :=
  { offers Settings.default adapter with pricer := livePricing.pricer }

/-- The first item fetches the rate, the second one finds it cached. -/
def liveSession : OfferSync.Left Time Stats :=
  liveOffers.sessionScope (liveOffers.run none false) db 0 []

/-- Both items are sold at the one rate that was fetched. -/
theorem liveSession_prices :
    liveSession.trace.filterMap (fun entry => entry.call.price) = [207 / 20, 207 / 20] ∧
      liveSession.db.fxRates.map FxRate.rate = [9 / 10] := by decide +kernel

/-- The session started from no rates. -/
theorem liveSession_live : liveSession.db.fxRates.map FxRate.rate = [9 / 10] ∧
    OfferSync.Adds (liveOffers.SentBy none false (Pricing.AtLiveRate livePricing) ⟨db, 0, [], []⟩)
      [] liveSession.trace ∧
    ∀ forceRefresh s e t, (Pricing.rate livePricing forceRefresh).Runs s (.error e) t →
      t.fxRates = s.fxRates :=
  ⟨liveSession_prices.2, OfferSync.sent_at_live_rate liveOffers livePricing rfl rfl db .empty
    none false 0 []⟩

end EchoStore

end FazerBridge
