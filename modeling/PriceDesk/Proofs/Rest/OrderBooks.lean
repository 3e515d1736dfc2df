import PriceDesk.Proofs.Desk.Muting
import PriceDesk.Rest.Adapter

namespace PriceDesk

namespace Text

variable {hole value cs : List Char}

/-- A value stands in every place of a text where there was a hole, found from left to right. -/
inductive Replaced (hole value : List Char) : List Char → List Char → Prop where
  | nil : Replaced hole value [] []
  | hole {rest filled : List Char} (more : Replaced hole value rest filled) :
    Replaced hole value (hole ++ rest) (value ++ filled)
  | char {c : Char} {rest filled : List Char} (other : ¬ hole <+: c :: rest)
    (more : Replaced hole value rest filled) : Replaced hole value (c :: rest) (c :: filled)

theorem fillChars_go_skip (n : Nat) (cs : List Char) :
    fillChars.go hole value n cs = fillChars.go hole value 0 (cs.drop n) := by
  induction n generalizing cs with
  | zero => rfl
  | succ n ih =>
    cases cs with
    | nil => simp [fillChars.go]
    | cons c cs => rw [fillChars.go, ih, List.drop_succ_cons]

theorem replaced_fillChars (proper : hole ≠ []) (cs : List Char) :
    Replaced hole value cs (fillChars hole value cs) := by
  induction length : cs.length using Nat.strongRecOn generalizing cs with
  | ind n ih =>
    cases cs with
    | nil => exact .nil
    | cons c rest =>
      rw [List.length_cons] at length
      rw [fillChars, fillChars.go]
      split
      · rename_i here
        rw [Bool.and_eq_true, List.isPrefixOf_iff_prefix] at here
        obtain ⟨after, whole⟩ := here.2
        obtain ⟨h, hs, rfl⟩ := List.exists_cons_of_ne_nil proper
        rw [List.cons_append, List.cons.injEq] at whole
        obtain ⟨rfl, rfl⟩ := whole
        rw [List.length_append] at length
        rw [fillChars_go_skip, List.length_cons, Nat.add_sub_cancel, List.drop_left]
        exact .hole (ih after.length (by omega) after rfl)
      · rename_i other
        apply Replaced.char _ (ih rest.length (by omega) rest rfl)
        intro starts
        rw [← List.isPrefixOf_iff_prefix] at starts
        simp [proper, starts] at other

end Text

namespace OrderBookEndpoint

variable {endpoint : OrderBookEndpoint} {entry part : Json} {entries : List Json}
  {level : Level} {levels : List Level} {pointer : String}

/-- Whether an entry is a level: it has a price and an amount, at positions of an array or under
names. -/
inductive Tells (endpoint : OrderBookEndpoint) : Json → Level → Prop where
  | placed {items : List Json} {price amount : Json} {level : Level}
    (here : items[endpoint.priceIndex]? = some price)
    (there : items[endpoint.amountIndex]? = some amount)
    (reads : Payload.decimal price = some level.price)
    (reads' : Payload.decimal amount = some level.amount) : Tells endpoint (.arr items) level
  | named {members : List (String × Json)} {price amount : Json} {level : Level}
    (here : members.lookup endpoint.priceField = some price)
    (there : members.lookup endpoint.amountField = some amount)
    (reads : Payload.decimal price = some level.price)
    (reads' : Payload.decimal amount = some level.amount) : Tells endpoint (.obj members) level

inductive Keeps (endpoint : OrderBookEndpoint) : List Json → List Level → Prop where
  | nil : Keeps endpoint [] []
  | level {entry : Json} {level : Level} {entries : List Json} {levels : List Level}
    (tells : endpoint.Tells entry level) (more : Keeps endpoint entries levels) :
    Keeps endpoint (entry :: entries) (level :: levels)
  | malformed {entry : Json} {entries : List Json} {levels : List Level}
    (tellsNone : ∀ level, ¬ endpoint.Tells entry level) (more : Keeps endpoint entries levels) :
    Keeps endpoint (entry :: entries) levels

/-- The entries of a side: those of the array behind its pointer. Where there is no array, there are
none. -/
inductive Side (part : Json) (pointer : String) : List Json → Prop where
  | array {entries : List Json} (found : Json.Pointer.select? part pointer = some (.arr entries)) :
    Side part pointer entries
  | other (missing : ∀ entries, Json.Pointer.select? part pointer ≠ some (.arr entries)) :
    Side part pointer []

def FirstLevels (endpoint : OrderBookEndpoint) (part : Json) (pointer : String) (depth : Nat)
    (levels : List Level) : Prop :=
  ∃ entries all, Side part pointer entries ∧ endpoint.Keeps entries all ∧ levels = all.take depth

def Offers (endpoint : OrderBookEndpoint) (part : Json) : Prop :=
  ∃ pointer ∈ [endpoint.bids, endpoint.asks], ∃ entries, Side part pointer entries ∧
    ∃ entry ∈ entries, ∃ level, endpoint.Tells entry level

theorem tells_iff : endpoint.Tells entry level ↔ Payload.level endpoint entry = some level := by
  constructor
  · rintro (⟨here, there, reads, reads'⟩ | ⟨here, there, reads, reads'⟩)
    all_goals simp [Payload.level, here, there, reads, reads']
  · intro told
    cases entry with
    | arr items =>
      simp only [Payload.level, Option.bind_eq_bind, Option.bind_eq_some_iff] at told
      obtain ⟨price, here, p, reads, amount, there, q, reads', same⟩ := told
      cases same
      exact .placed here there reads reads'
    | obj members =>
      simp only [Payload.level, Option.bind_eq_bind, Option.bind_eq_some_iff] at told
      obtain ⟨price, here, p, reads, amount, there, q, reads', same⟩ := told
      cases same
      exact .named here there reads reads'
    | _ => cases told

theorem keeps_iff :
    endpoint.Keeps entries levels ↔ levels = entries.filterMap (Payload.level endpoint) := by
  constructor
  · intro keeps
    induction keeps with
    | nil => rfl
    | level tells _ ih => rw [List.filterMap_cons_some (tells_iff.mp tells), ih]
    | malformed tellsNone _ ih =>
      rename_i entry _ _ _
      have missed : Payload.level endpoint entry = none :=
        Option.eq_none_iff_forall_ne_some.mpr fun level told => tellsNone level (tells_iff.mpr told)
      rw [List.filterMap_cons_none missed, ih]
  · rintro rfl
    induction entries with
    | nil => exact .nil
    | cons entry entries ih =>
      cases told : Payload.level endpoint entry with
      | none =>
        rw [List.filterMap_cons_none told]
        refine .malformed (fun level tells => ?_) ih
        cases told.symm.trans (tells_iff.mp tells)
      | some level =>
        rw [List.filterMap_cons_some told]
        exact .level (tells_iff.mpr told) ih

theorem side_levels (part : Json) (pointer : String) (endpoint : OrderBookEndpoint) :
    ∃ entries, Side part pointer entries ∧
      Payload.levels part pointer endpoint = entries.filterMap (Payload.level endpoint) := by
  unfold Payload.levels
  split
  · rename_i entries found
    exact ⟨entries, .array found, rfl⟩
  · rename_i other
    exact ⟨[], .other fun entries found => other entries found, rfl⟩

theorem Side.unique {entries' : List Json} (side : Side part pointer entries)
    (side' : Side part pointer entries') : entries = entries' := by
  cases side with
  | array found =>
    cases side' with
    | array found' =>
      cases found.symm.trans found'
      rfl
    | other missing => exact absurd found (missing _)
  | other missing =>
    cases side' with
    | array found => exact absurd found (missing _)
    | other _ => rfl

theorem firstLevels_iff {depth : Nat} : endpoint.FirstLevels part pointer depth levels ↔
    levels = (Payload.levels part pointer endpoint).take depth := by
  obtain ⟨entries, side, read⟩ := side_levels part pointer endpoint
  rw [read]
  constructor
  · rintro ⟨entries', all, side', keeps, rfl⟩
    rw [side.unique side', keeps_iff.mp keeps]
  · rintro rfl
    exact ⟨entries, _, side, keeps_iff.mpr rfl, rfl⟩

theorem offers_iff : endpoint.Offers part ↔
    Payload.levels part endpoint.bids endpoint ≠ [] ∨
      Payload.levels part endpoint.asks endpoint ≠ [] := by
  have kept : ∀ pointer, (∃ entries, Side part pointer entries ∧
      ∃ entry ∈ entries, ∃ level, endpoint.Tells entry level) ↔
        Payload.levels part pointer endpoint ≠ [] := by
    intro pointer
    obtain ⟨entries, side, levels⟩ := side_levels part pointer endpoint
    rw [levels]
    simp only [tells_iff]
    constructor
    · rintro ⟨entries', side', entry, member, level, told⟩
      cases side.unique side'
      exact List.ne_nil_of_mem (List.mem_filterMap.mpr ⟨entry, member, told⟩)
    · intro some
      obtain ⟨level, kept⟩ := List.exists_mem_of_ne_nil _ some
      obtain ⟨entry, member, told⟩ := List.mem_filterMap.mp kept
      exact ⟨entries, side, entry, member, level, told⟩
  simp only [Offers, kept, List.mem_cons, List.not_mem_nil, or_false, exists_eq_or_imp,
    exists_eq_left]

end OrderBookEndpoint

namespace Adapter

variable {a : Adapter} {endpoint : OrderBookEndpoint} {pair : AssetPair} {payload : Json}
  {depth : Nat}

/-- Whether this is the address for an order book of so many levels: the base address without the
slashes at its end, and the path with the ticker of the pair and the number filled in. -/
structure Addresses (a : Adapter) (endpoint : OrderBookEndpoint) (pair : AssetPair) (depth : Nat)
    (base path : List Char) : Prop where
  base : ∃ slashes, a.description.baseUrl.toList = base ++ List.replicate slashes '/' ∧
    base.getLast? ≠ some '/'
  path : ∃ named, Text.Replaced pairHole.toList (Text.percentEncode (a.codes.ticker pair)).toList
    endpoint.path.toList named ∧ Text.Replaced limitHole.toList (toString depth).toList named path

theorem trim_slashes (cs : List Char) : ∃ slashes,
    cs = (cs.reverse.dropWhile (· == '/')).reverse ++ List.replicate slashes '/' := by
  have slashes : cs.reverse.takeWhile (· == '/') =
      List.replicate (cs.reverse.takeWhile (· == '/')).length '/' := by
    apply List.eq_replicate_of_mem
    intro c member
    exact beq_iff_eq.mp (List.all_eq_true.mp List.all_takeWhile c member)
  refine ⟨(cs.reverse.takeWhile (· == '/')).length, ?_⟩
  rw [← List.reverse_inj, List.reverse_append, List.reverse_reverse, List.reverse_replicate,
    ← slashes, List.takeWhile_append_dropWhile]

theorem addresses_url (a : Adapter) (endpoint : OrderBookEndpoint) (pair : AssetPair)
    (depth : Nat) : ∃ base path, a.Addresses endpoint pair depth base path ∧
      a.url endpoint.path (some pair) (some depth) = String.ofList (base ++ path) := by
  obtain ⟨slashes, trims⟩ := trim_slashes a.description.baseUrl.toList
  have last : (a.description.baseUrl.toList.reverse.dropWhile (· == '/')).reverse.getLast? ≠
      some '/' := by
    rw [List.getLast?_reverse]
    intro slash
    have other := List.head?_dropWhile_not (· == '/') a.description.baseUrl.toList.reverse
    simp [slash] at other
  refine ⟨_, _, ⟨⟨slashes, trims, last⟩, _, Text.replaced_fillChars (by decide) _,
    Text.replaced_fillChars (by decide) _⟩, ?_⟩
  simp [url, Text.fill]

/-- What the exchange makes of a request for an order book: it answers in time, with a status that
means success and a payload in JSON. -/
structure Delivers (a : Adapter) (f : Floor Street) (timeout : Duration) (url : String)
    (address : Url) (payload : Json) : Prop where
  leads : Url.ofString? url = some address
  sendable : ∀ header ∈ a.keyHeader, header.isSendable = true
  answer : ∃ status body, a.server.respond address.target = .answered status body ∧
    200 ≤ status ∧ status < 300 ∧ Json.ofText? body = some payload
  inTime : (f.world.pace a.index a.tier f.clock.now).1 + requestTime ≤ f.clock.now + timeout

/-- What becomes of a request for an order book to which there is such an answer. -/
structure Books (a : Adapter) (endpoint : OrderBookEndpoint) (pair : AssetPair) (payload : Json)
    (depth : Nat) (result : Except MarketError OrderBook) : Prop where
  book : ∀ part, Payload.select payload (a.pointer endpoint.pointer pair) = some part →
    endpoint.Offers part → ∃ bids asks, endpoint.FirstLevels part endpoint.bids depth bids ∧
      endpoint.FirstLevels part endpoint.asks depth asks ∧
      result = .ok { network := a.network, pair, bids, asks }
  empty : ∀ part, Payload.select payload (a.pointer endpoint.pointer pair) = some part →
    ¬ endpoint.Offers part →
      result = .error (.providerResponse a.id "get_order_book" s!"Empty order book for {pair}")
  missing : Payload.select payload (a.pointer endpoint.pointer pair) = none →
    result = .error (.providerResponse a.id "get_order_book" "Order book not found")

theorem Delivers.fetch {f : Floor Street} {timeout : Duration} {url : String} {address : Url}
    (delivers : a.Delivers f timeout url address payload) (method : String) :
    a.fetch method url ⟨f.clock.now, f.world, some (f.clock.now + timeout)⟩ =
      (.ok payload,
       { now := (f.world.pace a.index a.tier f.clock.now).1 + requestTime
         street := (f.world.pace a.index a.tier f.clock.now).2.note
           (address.target ++ (a.keyHeader.map Header.note).getD "")
         deadline := some (f.clock.now + timeout) }) := by
  obtain ⟨status, body, responds, least, most, reads⟩ := delivers.answer
  have started := Nat.le_trans (Nat.le_add_right _ requestTime) delivers.inTime
  have early : ¬ (some (f.clock.now + timeout)).any
      (· < (f.world.pace a.index a.tier f.clock.now).1) = true := by
    simpa using started
  have sendable : ¬ a.keyHeader.any (!·.isSendable) = true := by
    cases key : a.keyHeader with
    | none => simp
    | some header => simp [delivers.sendable header key]
  have success : ¬ (status < 200 || 300 ≤ status) = true ∧ ¬ (status == 429) = true := by
    simp
    omega
  unfold Adapter.fetch
  dsimp only
  rw [if_neg early, delivers.leads]
  dsimp only
  rw [if_neg sendable, responds]
  simp [read, success.1, success.2, reads]

theorem Books.cases {result : Except MarketError OrderBook}
    (books : a.Books endpoint pair payload depth result) : (∃ book, result = .ok book) ∨
      ∃ message, result = .error (.providerResponse a.id "get_order_book" message) := by
  cases selected : Payload.select payload (a.pointer endpoint.pointer pair) with
  | none => exact .inr ⟨_, books.missing selected⟩
  | some part =>
    by_cases offers : endpoint.Offers part
    · obtain ⟨bids, asks, _, _, booked⟩ := books.book part selected offers
      exact .inl ⟨_, booked⟩
    · exact .inr ⟨_, books.empty part selected offers⟩

theorem Books.truncate {result : Except MarketError OrderBook} {most : Nat}
    (books : a.Books endpoint pair payload depth result) (le : depth ≤ most) :
    a.Books endpoint pair payload depth (result.map (·.truncate most)) where
  book := by
    intro part selected offers
    obtain ⟨bids, asks, first, first', rfl⟩ := books.book part selected offers
    refine ⟨bids, asks, first, first', ?_⟩
    rw [OrderBookEndpoint.firstLevels_iff] at first first'
    -- A book that was cut already is cut again, to no fewer levels.
    have kept : ∀ levels : List Level, (levels.take depth).take most = levels.take depth := by
      intro levels
      rw [List.take_take, Nat.min_eq_right le]
    simp only [Except.map, OrderBook.truncate, first, first', kept]
  empty := by
    intro part selected offersNone
    rw [books.empty part selected offersNone]
    rfl
  missing := by
    intro missing
    rw [books.missing missing]
    rfl

theorem call_eq {α : Type} (go : Trip → Except MarketError α × Trip) (timeout : Duration)
    (now : Instant) (street : Street) :
    call go (some timeout) now street =
      (⟨some ((go ⟨now, street, some (now + timeout)⟩).2.now - now),
          (go ⟨now, street, some (now + timeout)⟩).1⟩,
        (go ⟨now, street, some (now + timeout)⟩).2.street) :=
  rfl

theorem Books.within {r : Reply OrderBook} {delay timeout : Duration}
    (books : a.Books endpoint pair payload depth r.outcome) (takes : r.delay = some delay)
    (soon : delay ≤ timeout) (provider method : String) :
    r.within provider method timeout = r.outcome := by
  unfold Reply.within
  rw [takes]
  dsimp only
  rw [if_pos soon]
  rcases books.cases with ⟨book, same⟩ | ⟨message, same⟩
  · rw [same]
  · rw [same]

theorem books_fetchOrderBook {requested : Nat} {trip trip' : Trip}
    (described : a.description.orderBook = some endpoint)
    (depth_eq : depth = min requested (endpoint.maxDepth.getD 1000))
    (answered : a.fetch "get_order_book" (a.url endpoint.path (some pair) (some depth)) trip =
      (.ok payload, trip')) :
    (a.fetchOrderBook pair requested trip).2 = trip' ∧
      a.Books endpoint pair payload depth (a.fetchOrderBook pair requested trip).1 := by
  unfold fetchOrderBook
  rw [described]
  dsimp only [OrderBook.depth, OrderBook.defaultCap]
  rw [← depth_eq, answered]
  refine ⟨rfl, ?_, ?_, ?_⟩
  · intro part selected offers
    rw [OrderBookEndpoint.offers_iff] at offers
    refine ⟨_, _, OrderBookEndpoint.firstLevels_iff.mpr rfl,
      OrderBookEndpoint.firstLevels_iff.mpr rfl, ?_⟩
    have filled : ¬ (Payload.levels part endpoint.bids endpoint = [] ∧
        Payload.levels part endpoint.asks endpoint = []) := by
      rwa [not_and_or]
    simp [bind, Except.bind, selected, OrderBook.isEmpty, filled, OrderBook.truncate]
  · intro part selected offersNone
    rw [OrderBookEndpoint.offers_iff, not_or, not_not, not_not] at offersNone
    simp [bind, Except.bind, selected, OrderBook.isEmpty, offersNone]
  · intro missing
    simp [bind, Except.bind, missing]

end Adapter

namespace Desk

def bookDepth (s : Setup Street) (endpoint : OrderBookEndpoint) (requested : Nat) : Nat :=
  min (min requested s.orderBookCap) (endpoint.maxDepth.getD 1000)

variable {s : Setup Street} {d : Desk Street} {a : Adapter} {endpoint : OrderBookEndpoint}
  {network : Network} {pair : AssetPair} {requested : Nat} {payload : Json} {address : Url}

theorem orderBook_within (d : Desk Street) (pair : AssetPair) (requested : Nat)
    {p : Provider Street} {ask : AssetPair → Nat → Call Street OrderBook}
    (preferred : s.registry.preferred? network .orderBook = some p)
    (provides : p.orderBook = some ask) :
    let depth := min requested s.orderBookCap
    let answer := ask pair depth (some s.quoteTimeout) d.floor.clock.now d.floor.world
    (d.orderBook s network pair requested).1 =
        (answer.1.within p.id "get_order_book" s.quoteTimeout).map (·.truncate depth) ∧
      (d.orderBook s network pair requested).2.floor.world = answer.2 := by
  intro depth answer
  unfold orderBook
  rw [preferred]
  dsimp only
  rw [provides, ← Call.conclude_invoke]
  exact ⟨rfl, rfl⟩

/-- A desk that asks an exchange for an order book has the first levels of each side. -/
theorem order_book_has_first_levels
    (preferred : s.registry.preferred? network .orderBook = some a.provider)
    (described : a.description.orderBook = some endpoint)
    (delivers : a.Delivers d.floor s.quoteTimeout
      (a.url endpoint.path (some pair) (some (bookDepth s endpoint requested))) address payload) :
    a.Books endpoint pair payload (bookDepth s endpoint requested)
      (d.orderBook s network pair requested).1 ∧
    ∃ base path, a.Addresses endpoint pair (bookDepth s endpoint requested) base path ∧
      Url.ofString? (String.ofList (base ++ path)) = some address ∧
      (d.orderBook s network pair requested).2.floor.world.record =
        (address.target ++ (a.keyHeader.map Header.note).getD "") :: d.floor.world.record := by
  have provides : a.provider.orderBook =
      some fun pair depth => Adapter.call (a.fetchOrderBook pair depth) := by
    simp [Adapter.provider, Adapter.fullProvider, described]
  obtain ⟨trip, books⟩ := Adapter.books_fetchOrderBook described rfl
    (delivers.fetch "get_order_book")
  obtain ⟨result, world⟩ := orderBook_within d pair requested preferred provides
  rw [result, world, Adapter.call_eq, trip]
  constructor
  · apply Adapter.Books.truncate _ (Nat.min_le_left _ _)
    have soon := Nat.sub_le_iff_le_add'.mpr delivers.inTime
    rwa [Adapter.Books.within books rfl soon]
  · obtain ⟨base, path, addresses, url⟩ :=
      a.addresses_url endpoint pair (bookDepth s endpoint requested)
    exact ⟨base, path, addresses, url ▸ delivers.leads,
      congrArg (_ :: ·) (Street.record_pace _ _ _ _)⟩

def shelfBody : String :=
  "\x7b\"bids\": [[1, 5], [\"x\"], [2, 6], [3, 7]], " ++
    "\"asks\": [\x7b\"price\": 4, \"amount\": 8\x7d]\x7d"

def shelfEndpoint : OrderBookEndpoint where
  path := "/book?of=" ++ pairHole ++ "&n=" ++ limitHole
  maxDepth := some 2

def shelf : Adapter :=
  .of
    { id := "shelf", network := "Shelf", baseUrl := "http://shelf/", pairSeparator := some '_'
      orderBook := some shelfEndpoint }
    [{ path := "/book?of=BTC_USD&n=2", body := shelfBody }] 0 0

def shelfSetup : Setup Street where
  registry := ⟨[shelf.provider], List.pairwise_singleton _ _, List.pairwise_singleton _ _⟩
  listingTimeout := 1000
  quoteTimeout := 1000

def shelfDesk : Desk Street where
  floor := { world := .of [.free], listings := { ttl := 1 } }

theorem shelf_payload : ∃ payload, Json.ofText? shelfBody = some payload ∧
    (Payload.levels payload "/bids" shelfEndpoint).map (·.price.render) = ["1", "2", "3"] ∧
    (Payload.levels payload "/asks" shelfEndpoint).map (·.price.render) = ["4"] := by
  have read : (Json.ofText? shelfBody).map (fun payload =>
      ((Payload.levels payload "/bids" shelfEndpoint).map (·.price.render),
        (Payload.levels payload "/asks" shelfEndpoint).map (·.price.render))) =
      some (["1", "2", "3"], ["4"]) := by decide +kernel
  obtain ⟨payload, known, sides⟩ := Option.map_eq_some_iff.mp read
  exact ⟨payload, known, congrArg Prod.fst sides, congrArg Prod.snd sides⟩

/-- The malformed entry does not count. -/
theorem shelf_book_has_two_bids : ∃ book,
    (shelfDesk.orderBook shelfSetup (.of "shelf") (.of "BTC" "USD") 5).1 = .ok book ∧
    book.bids.map (·.price.render) = ["1", "2"] ∧ book.asks.map (·.price.render) = ["4"] ∧
    (shelfDesk.orderBook shelfSetup (.of "shelf") (.of "BTC" "USD") 5).2.floor.world.record =
      ["/book?of=BTC_USD&n=2"] := by
  obtain ⟨payload, reads, bids, asks⟩ := shelf_payload
  have delivers : shelf.Delivers shelfDesk.floor shelfSetup.quoteTimeout
      (shelf.url shelfEndpoint.path (some (.of "BTC" "USD"))
        (some (bookDepth shelfSetup shelfEndpoint 5)))
      ⟨"http", "shelf", "/book?of=BTC_USD&n=2"⟩ payload := by
    refine ⟨by decide +kernel, nofun, ⟨200, shelfBody, by decide +kernel, by decide, by decide,
      reads⟩, by decide +kernel⟩
  have preferred : shelfSetup.registry.preferred? (.of "shelf") .orderBook =
    some shelf.provider := rfl
  obtain ⟨books, base, path, _, _, record⟩ := order_book_has_first_levels preferred rfl delivers
  have offers : shelfEndpoint.Offers payload := by
    rw [OrderBookEndpoint.offers_iff]
    left
    intro nothing
    have missing := bids.symm.trans (congrArg (List.map (·.price.render)) nothing)
    cases missing
  obtain ⟨bids', asks', first, first', booked⟩ := books.book payload rfl offers
  rw [OrderBookEndpoint.firstLevels_iff] at first first'
  refine ⟨_, booked, ?_, ?_, record⟩
  · rw [first, List.map_take]
    exact congrArg (List.take 2) bids
  · rw [first', List.map_take]
    exact congrArg (List.take 2) asks

end Desk

end PriceDesk
