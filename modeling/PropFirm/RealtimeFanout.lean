import Mathlib
import PropFirm.PriceCache
import PropFirm.TickCoalescing

/-!
# The real-time fan-out of one process

Instruments whose price moved are queued, and a flush at most every `PRICE_BROADCAST_MS` sends their latest
quotes to the sockets of this process: one frame with all of them to the all-prices room, and one frame for
each to the room of its instrument.

A process has its own clock, and a timer fires at some time from its due time on. The calls and the flushes
are kept in a history for the statement of what a flush owes.
-/

namespace PropFirm

open Batching

/-! ### Roles -/

inductive ProcessRole
  | all
  | engine
  | gateway
  | api
  deriving DecidableEq

namespace ProcessRole

def runsEngine (role : ProcessRole) : Bool := role = .engine || role = .all

def servesSockets (role : ProcessRole) : Bool := role = .gateway || role = .all

def publishesRealtimeOverRedis (role : ProcessRole) : Bool := role = .engine

/-- The two halves of `startRedisBridge`. -/
def publishes (role : ProcessRole) : Bool := role.publishesRealtimeOverRedis || role = .all

def consumes (role : ProcessRole) : Bool := role = .gateway || role = .all

end ProcessRole

/-- `normalize` is `String(raw || '').trim().toUpperCase()`. -/
structure FanoutConfig where
  priceBroadcastMs : Nat
  normalize : String → String

/-! ### Sockets and their rooms -/

def maxSubscriptions : Nat := 60

def priceRoom (instrument : String) : String := "price:" ++ instrument

def allPricesRoom : String := "prices"

theorem priceRoom_injective : Function.Injective priceRoom := by
  intro instrument instrument' heq
  have hlist := congrArg String.toList heq
  rw [priceRoom, priceRoom, String.toList_append, String.toList_append] at hlist
  exact String.toList_injective (List.append_cancel_left hlist)

theorem priceRoom_ne_allPricesRoom (instrument : String) : priceRoom instrument ≠ allPricesRoom := by
  intro heq
  have hlist := congrArg (fun room => room.toList[5]?) heq
  rw [priceRoom, String.toList_append, List.getElem?_append_left (by decide)] at hlist
  exact absurd hlist (by decide)

/-- A connected socket with the price rooms it is in; `priceRooms` is undefined until its first
subscription. -/
structure FanoutSocket where
  id : Nat
  userId : Option String
  rooms : Finset String
  priceRooms : Option (List String)

namespace FanoutSocket

/-- Only a trader is put into the all-prices room. -/
def handshake (id : Nat) (userId : Option String) : FanoutSocket :=
  ⟨id, userId, if userId.isSome then {allPricesRoom} else ∅, none⟩

def subscription (s : FanoutSocket) : List String := s.priceRooms.getD []

/-- The loop over the requested entries, with the set collected so far. -/
def requestedInstruments (cfg : FanoutConfig) (next : List String) : List String → List String
  | [] => next
  | raw :: rest =>
    if cfg.normalize raw = "" then requestedInstruments cfg next rest
    else if maxSubscriptions ≤ (PriceEngine.addAll next [cfg.normalize raw]).length then
      PriceEngine.addAll next [cfg.normalize raw]
    else requestedInstruments cfg (PriceEngine.addAll next [cfg.normalize raw]) rest

/-- The argument is `none` when it is not an array. -/
def setSocketSubscriptions (cfg : FanoutConfig) (s : FanoutSocket) (instruments : Option (List String)) :
    FanoutSocket × Nat :=
  let next := requestedInstruments cfg [] (instruments.getD [])
  let left := s.subscription.filter (· ∉ next)
  let joined := next.filter (· ∉ s.subscription)
  let rooms := s.rooms \ (left.map priceRoom).toFinset ∪ (joined.map priceRoom).toFinset
  ({ s with
      priceRooms := some next
      rooms := if next = [] then insert allPricesRoom rooms else rooms.erase allPricesRoom }, next.length)

/-- The socket of a trader, or one that has subscribed. -/
def Follows (s : FanoutSocket) : Prop := s.userId.isSome ∨ s.priceRooms.isSome

/-- A socket that follows prices wants those of its subscription, and all of them if that is empty. -/
def Wants (s : FanoutSocket) (instrument : String) : Prop := s.subscription = [] ∨ instrument ∈ s.subscription

instance (s : FanoutSocket) : DecidablePred s.Wants := fun _ => inferInstanceAs (Decidable (_ ∨ _))

structure Placed (s : FanoutSocket) : Prop where
  all : allPricesRoom ∈ s.rooms ↔ s.subscription = [] ∧ s.Follows
  each : ∀ instrument, priceRoom instrument ∈ s.rooms ↔ instrument ∈ s.subscription
  only : ∀ room ∈ s.rooms, room = allPricesRoom ∨ ∃ instrument, room = priceRoom instrument

/-- In the all-prices room or else in the rooms of its subscription, and in no other one. -/
structure InOneFeed (s : FanoutSocket) : Prop where
  apart : Xor (allPricesRoom ∈ s.rooms)
    (s.subscription ≠ [] ∧ ∀ instrument ∈ s.subscription, priceRoom instrument ∈ s.rooms)
  only : ∀ room ∈ s.rooms, room = allPricesRoom ∨ ∃ instrument ∈ s.subscription, room = priceRoom instrument

variable {s : FanoutSocket}

theorem placed_handshake (id : Nat) (userId : Option String) : (handshake id userId).Placed := by
  cases userId with
  | none => exact ⟨by simp [handshake, Follows], by simp [handshake, subscription], by simp [handshake]⟩
  | some userId =>
    refine ⟨by simp [handshake, subscription, Follows], fun instrument => ?_, by simp [handshake]⟩
    have hne := priceRoom_ne_allPricesRoom instrument
    simp [handshake, subscription, hne]

theorem mem_rooms_of_moved {rooms : Finset String} {previous : List String} (next : List String)
    (hrooms : ∀ instrument, priceRoom instrument ∈ rooms ↔ instrument ∈ previous) (instrument : String) :
    priceRoom instrument ∈ rooms \ ((previous.filter (· ∉ next)).map priceRoom).toFinset ∪
        ((next.filter (· ∉ previous)).map priceRoom).toFinset ↔ instrument ∈ next := by
  simp only [Finset.mem_union, Finset.mem_sdiff, List.mem_toFinset, List.mem_map, List.mem_filter, hrooms,
    priceRoom_injective.eq_iff, exists_eq_right, decide_eq_true_eq]
  tauto

theorem Placed.setSocketSubscriptions (hplaced : s.Placed) (cfg : FanoutConfig)
    (instruments : Option (List String)) : (s.setSocketSubscriptions cfg instruments).1.Placed := by
  have hnever := priceRoom_ne_allPricesRoom
  unfold FanoutSocket.setSocketSubscriptions
  generalize requestedInstruments cfg [] (instruments.getD []) = next
  have hmoved := mem_rooms_of_moved next hplaced.each
  refine ⟨?_, fun instrument => ?_, fun room hroom => ?_⟩
  · by_cases hnext : next = [] <;> simp [hnext, subscription, Follows]
  · refine Iff.trans ?_ (hmoved instrument)
    dsimp only
    split
    · rw [Finset.mem_insert, or_iff_right (hnever instrument)]
    · rw [Finset.mem_erase, and_iff_right (hnever instrument)]
  · have hroom' : room = allPricesRoom ∨ room ∈ s.rooms \
        ((s.subscription.filter (· ∉ next)).map priceRoom).toFinset ∪
          ((next.filter (· ∉ s.subscription)).map priceRoom).toFinset := by
      dsimp only at hroom
      split at hroom
      · exact Finset.mem_insert.mp hroom
      · exact .inr (Finset.mem_of_mem_erase hroom)
    rcases hroom' with hall | hroom'
    · exact .inl hall
    · rcases Finset.mem_union.mp hroom' with hkept | hjoined
      · exact hplaced.only room (Finset.mem_sdiff.mp hkept).1
      · obtain ⟨instrument, -, rfl⟩ := List.mem_map.mp (List.mem_toFinset.mp hjoined)
        exact .inr ⟨instrument, rfl⟩

theorem Placed.inOneFeed (hplaced : s.Placed) (hfollows : s.Follows) : s.InOneFeed := by
  have hall : allPricesRoom ∈ s.rooms ↔ s.subscription = [] :=
    hplaced.all.trans (and_iff_left hfollows)
  have heach : ∀ instrument ∈ s.subscription, priceRoom instrument ∈ s.rooms :=
    fun instrument => (hplaced.each instrument).mpr
  refine ⟨?_, fun room hroom => ?_⟩
  · by_cases hnone : s.subscription = []
    · exact .inl ⟨hall.mpr hnone, fun hother => hother.1 hnone⟩
    · exact .inr ⟨⟨hnone, heach⟩, fun hmem => hnone (hall.mp hmem)⟩
  · refine (hplaced.only room hroom).imp_right ?_
    rintro ⟨instrument, rfl⟩
    exact ⟨instrument, (hplaced.each instrument).mp hroom, rfl⟩

/-- A subscription is a set, and no larger than its cap. -/
theorem requestedInstruments_spec (cfg : FanoutConfig) {next raws : List String} (hnodup : next.Nodup)
    (hlength : next.length < maxSubscriptions) :
    (requestedInstruments cfg next raws).Nodup ∧
      (requestedInstruments cfg next raws).length ≤ maxSubscriptions := by
  induction raws generalizing next with
  | nil => exact ⟨hnodup, hlength.le⟩
  | cons raw raws ih =>
    have hadded := PriceEngine.nodup_addAll [cfg.normalize raw] hnodup
    have hgrown : (PriceEngine.addAll next [cfg.normalize raw]).length ≤ next.length + 1 := by
      rw [PriceEngine.addAll, List.foldl_cons, List.foldl_nil]
      split
      · exact Nat.le_succ _
      · rw [List.length_append, List.length_singleton]
    rw [requestedInstruments]
    split
    · exact ih hnodup hlength
    · split
      · exact ⟨hadded, by omega⟩
      · next hless => exact ih hadded (by omega)

theorem subscribed_le (s : FanoutSocket) (cfg : FanoutConfig) (instruments : Option (List String)) :
    (s.setSocketSubscriptions cfg instruments).2 ≤ maxSubscriptions :=
  (requestedInstruments_spec cfg List.nodup_nil (by decide)).2

end FanoutSocket

/-! ### Frames -/

/-- The price object of a frame has its entries in their order. -/
structure PriceDelta where
  t : Nat
  p : List (String × CachedPrice)

structure PriceFrame where
  room : String
  payload : PriceDelta

/-- The frames of `deliverPriceDelta`, each for the local sockets of its room. -/
def PriceDelta.frames (delta : PriceDelta) : List PriceFrame :=
  ⟨allPricesRoom, delta⟩ :: delta.p.map fun entry => ⟨priceRoom entry.1, ⟨delta.t, [entry]⟩⟩

namespace FanoutSocket

variable {s : FanoutSocket}

/-- The quotes of the frames that a socket gets. -/
def quotesFrom (s : FanoutSocket) (frames : List PriceFrame) : List (String × CachedPrice) :=
  (frames.filter (·.room ∈ s.rooms)).flatMap (·.payload.p)

theorem quotesFrom_each (hplaced : s.Placed) (t : Nat) (entries : List (String × CachedPrice)) :
    s.quotesFrom (entries.map fun entry => ⟨priceRoom entry.1, ⟨t, [entry]⟩⟩) =
      entries.filter (·.1 ∈ s.subscription) := by
  induction entries with
  | nil => rfl
  | cons entry entries ih =>
    rw [quotesFrom, List.map_cons, List.filter_cons, List.filter_cons]
    by_cases hmem : entry.1 ∈ s.subscription
    · rw [if_pos (decide_eq_true ((hplaced.each entry.1).mpr hmem)), if_pos (decide_eq_true hmem),
        List.flatMap_cons, ← ih]
      rfl
    · have hroom : ¬ priceRoom entry.1 ∈ s.rooms := fun hroom => hmem ((hplaced.each entry.1).mp hroom)
      rw [if_neg (by simpa using hroom), if_neg (by simpa using hmem)]
      exact ih

/-- A socket that follows prices gets the quotes it wants, each as often as the delta has it. -/
theorem quotesFrom_eq (hplaced : s.Placed) (hfollows : s.Follows) (delta : PriceDelta) :
    s.quotesFrom delta.frames = delta.p.filter fun entry => s.Wants entry.1 := by
  have heach := quotesFrom_each hplaced delta.t delta.p
  rw [quotesFrom] at heach
  rw [quotesFrom, PriceDelta.frames, List.filter_cons]
  by_cases hnone : s.subscription = []
  · have hall : allPricesRoom ∈ s.rooms := hplaced.all.mpr ⟨hnone, hfollows⟩
    rw [if_pos (decide_eq_true hall), List.flatMap_cons, heach]
    simp [hnone, Wants]
  · have hall : ¬ allPricesRoom ∈ s.rooms := fun hmem => hnone (hplaced.all.mp hmem).1
    rw [if_neg (by simpa using hall), heach]
    simp [hnone, Wants]

/-- A socket that does not follow prices gets none. -/
theorem quotesFrom_eq_nil (hplaced : s.Placed) (hfollows : ¬ s.Follows) (frames : List PriceFrame) :
    s.quotesFrom frames = [] := by
  have hnone : s.subscription = [] := by
    rw [subscription, Option.not_isSome_iff_eq_none.mp fun hsome => hfollows (.inr hsome)]
    rfl
  have hrooms : ∀ room, room ∉ s.rooms := by
    intro room hroom
    rcases hplaced.only room hroom with rfl | ⟨instrument, rfl⟩
    · exact hfollows (hplaced.all.mp hroom).2
    · exact List.not_mem_nil (hnone ▸ (hplaced.each instrument).mp hroom)
  rw [quotesFrom, List.filter_eq_nil_iff.mpr fun frame _ => by simpa using hrooms frame.room]
  rfl

end FanoutSocket

/-! ### Queue, timer and flush -/

/-- A flush, with what it found pending and cached. -/
structure PriceFlush where
  flushedAt : Nat
  pending : List String
  prices : PriceMap
  delta : PriceDelta

/-- The delta has the cached quote of each pending instrument, once. -/
structure PriceFlush.Complete (f : PriceFlush) : Prop where
  once : (f.delta.p.map Prod.fst).Nodup
  latest : ∀ instrument price, (instrument, price) ∈ f.delta.p ↔
    instrument ∈ f.pending ∧ f.prices.get instrument = some price

inductive FanoutEvent
  | queued (instruments : List String)
  | flushed (f : PriceFlush)

def FanoutEvent.toEvent : FanoutEvent → Event String
  | .queued instruments => .passed instruments
  | .flushed f => .started f.pending

def FanoutEvent.flush? : FanoutEvent → Option PriceFlush
  | .queued _ => none
  | .flushed f => some f

/-- A message of the bridge with the instance that published it; `number` counts the deltas of all. -/
structure PriceMessage (ι : Type*) where
  origin : ι
  number : Nat
  delta : PriceDelta

/-- A delta written to the local sockets there were. -/
structure PriceDelivery where
  number : Nat
  delta : PriceDelta
  frames : List PriceFrame
  sockets : List FanoutSocket

/-- One process; `inbox` is what the bridge has for it, and the last two are ghosts. -/
structure FanoutProcess (ι : Type*) where
  role : ProcessRole
  now : Nat
  cache : PriceCache
  pending : List String
  priceFlushTimer : Option Nat
  lastPriceFlushAt : Nat
  sockets : List FanoutSocket
  inbox : List (PriceMessage ι)
  history : List FanoutEvent
  deliveries : List PriceDelivery

/-- The longest delay of a timer; a longer one is taken as 1 ms. -/
def maxTimeout : Nat := 2147483647

def setTimeoutDelay (delay : Nat) : Nat := if delay ≤ maxTimeout then delay else 1

/-- `userId` is `none` for an admin who brings no trader's token. -/
inductive FanoutCall
  | elapse (ms : Nat)
  | updatePrices (answer : Option PriceMap)
  | queuePriceDelta (instruments : List String)
  | timer
  | connect (id : Nat) (userId : Option String)
  | subscribe (id : Nat) (instruments : Option (List String))
  | disconnect (id : Nat)

namespace FanoutProcess

variable {ι : Type*}

def buildPriceDelta (p : FanoutProcess ι) (instruments : List String) : PriceDelta :=
  ⟨p.now, instruments.filterMap fun instrument => (p.cache.getPrice instrument).map (instrument, ·)⟩

/-- The delta is the one to send, if it is not empty. -/
def flushPrices (p : FanoutProcess ι) : FanoutProcess ι × Option PriceDelta :=
  if p.pending = [] then (p, none)
  else
    ({ p with
        pending := []
        lastPriceFlushAt := p.now
        history := .flushed ⟨p.now, p.pending, p.cache.prices, p.buildPriceDelta p.pending⟩ :: p.history },
      if (p.buildPriceDelta p.pending).p = [] then none else some (p.buildPriceDelta p.pending))

/-- The wait is `Math.max(0, PRICE_BROADCAST_MS - (Date.now() - _lastPriceFlushAt))`. -/
def queuePriceDelta (cfg : FanoutConfig) (p : FanoutProcess ι) (instruments : List String) :
    FanoutProcess ι × Option PriceDelta :=
  if instruments = [] then (p, none)
  else
    let q := { p with
      pending := PriceEngine.addAll p.pending instruments
      history := .queued instruments :: p.history }
    let wait := cfg.priceBroadcastMs + p.lastPriceFlushAt - p.now
    if p.priceFlushTimer.isSome then (q, none)
    else if wait = 0 then q.flushPrices
    else ({ q with priceFlushTimer := some (p.now + setTimeoutDelay wait) }, none)

def call (cfg : FanoutConfig) (p : FanoutProcess ι) :
    FanoutCall → Option (FanoutProcess ι × Option PriceDelta)
  | .elapse ms => some ({ p with now := p.now + ms }, none)
  | .updatePrices answer =>
    if p.role.runsEngine then some ({ p with cache := (p.cache.updatePrices answer).1 }, none) else none
  | .queuePriceDelta instruments =>
    if p.role.runsEngine then some (p.queuePriceDelta cfg instruments) else none
  | .timer =>
    p.priceFlushTimer.bind fun due =>
      if due ≤ p.now then some { p with priceFlushTimer := none }.flushPrices else none
  | .connect id userId =>
    if p.role.servesSockets ∧ ∀ s ∈ p.sockets, s.id ≠ id then
      some ({ p with sockets := FanoutSocket.handshake id userId :: p.sockets }, none)
    else none
  | .subscribe id instruments =>
    some ({ p with sockets := p.sockets.map fun s =>
      if s.id = id then (s.setSocketSubscriptions cfg instruments).1 else s }, none)
  | .disconnect id => some ({ p with sockets := p.sockets.filter (·.id ≠ id) }, none)

def deliverPriceDelta (p : FanoutProcess ι) (number : Nat) (delta : PriceDelta) : FanoutProcess ι :=
  { p with deliveries := ⟨number, delta, delta.frames, p.sockets⟩ :: p.deliveries }

def flushes (p : FanoutProcess ι) : List PriceFlush := p.history.filterMap FanoutEvent.flush?

/-- What is pending is what was queued and is in no later flush. -/
def LosesNothing (p : FanoutProcess ι) : Prop :=
  ∀ instrument, instrument ∈ Outstanding (p.history.map FanoutEvent.toEvent) ↔ instrument ∈ p.pending

def Armed (p : FanoutProcess ι) : Prop := p.pending ≠ [] → p.priceFlushTimer.isSome

def Spaced (cfg : FanoutConfig) (p : FanoutProcess ι) : Prop :=
  p.flushes.Pairwise fun later earlier => earlier.flushedAt + cfg.priceBroadcastMs ≤ later.flushedAt

instance (cfg : FanoutConfig) (p : FanoutProcess ι) : Decidable (p.Spaced cfg) :=
  inferInstanceAs (Decidable (List.Pairwise _ _))

def Fresh (p : FanoutProcess ι) : Prop :=
  p.pending = [] ∧ p.priceFlushTimer = none ∧ p.lastPriceFlushAt = 0 ∧ p.sockets = [] ∧ p.inbox = [] ∧
    p.history = [] ∧ p.deliveries = []

/-- What holds of a process besides `Armed`, also while it flushes. -/
structure Sound (cfg : FanoutConfig) (p : FanoutProcess ι) : Prop where
  clock : p.lastPriceFlushAt ≤ p.now
  due : cfg.priceBroadcastMs ≤ maxTimeout →
    ∀ due ∈ p.priceFlushTimer, p.lastPriceFlushAt + cfg.priceBroadcastMs ≤ due
  nodup : p.pending.Nodup
  runs : p.pending ≠ [] → p.role.runsEngine = true
  losesNothing : p.LosesNothing
  emptied : ∀ f earlier, p.history = .flushed f :: earlier → p.pending = []
  complete : ∀ f ∈ p.flushes, f.Complete
  recent : ∀ f ∈ p.flushes, f.flushedAt ≤ p.lastPriceFlushAt
  spaced : cfg.priceBroadcastMs ≤ maxTimeout → p.Spaced cfg
  placed : ∀ s ∈ p.sockets, s.Placed

variable {cfg : FanoutConfig} {p p' : FanoutProcess ι} {sent : Option PriceDelta}

theorem Fresh.flushes (hfresh : p.Fresh) : p.flushes = [] := by
  obtain ⟨-, -, -, -, -, hhistory, -⟩ := hfresh
  rw [FanoutProcess.flushes, hhistory]
  rfl

theorem Fresh.sound (hfresh : p.Fresh) : p.Sound cfg := by
  have hflushes := hfresh.flushes
  obtain ⟨hpending, htimer, hlast, hsockets, -, hhistory, -⟩ := hfresh
  refine
    { clock := hlast ▸ Nat.zero_le _
      due := fun _ due hdue => by rw [htimer] at hdue; cases hdue
      nodup := hpending ▸ List.nodup_nil
      runs := fun hne => absurd hpending hne
      losesNothing := fun instrument => ?_
      emptied := fun _ _ _ => hpending
      complete := fun f hf => by rw [hflushes] at hf; cases hf
      recent := fun f hf => by rw [hflushes] at hf; cases hf
      spaced := fun _ => ?_
      placed := fun s hs => by rw [hsockets] at hs; cases hs }
  · rw [hhistory, hpending]
    exact iff_of_false id List.not_mem_nil
  · rw [Spaced, hflushes]
    exact List.Pairwise.nil

theorem mem_buildPriceDelta {instruments : List String} {instrument : String} {price : CachedPrice} :
    (instrument, price) ∈ (p.buildPriceDelta instruments).p ↔
      instrument ∈ instruments ∧ p.cache.prices.get instrument = some price := by
  rw [buildPriceDelta, List.mem_filterMap]
  constructor
  · rintro ⟨instrument', hmem, hentry⟩
    obtain ⟨price', hprice, heq⟩ := Option.map_eq_some_iff.mp hentry
    obtain ⟨rfl, rfl⟩ := Prod.mk.inj heq
    exact ⟨hmem, hprice⟩
  · rintro ⟨hmem, hprice⟩
    exact ⟨instrument, hmem, Option.map_eq_some_iff.mpr ⟨price, hprice, rfl⟩⟩

theorem nodup_buildPriceDelta {instruments : List String} (hnodup : instruments.Nodup) :
    ((p.buildPriceDelta instruments).p.map Prod.fst).Nodup := by
  rw [buildPriceDelta, List.map_filterMap]
  refine hnodup.filterMap fun instrument instrument' name hname hname' => ?_
  simp only [Option.map_map, Option.mem_def, Option.map_eq_some_iff, Function.comp_apply] at hname hname'
  obtain ⟨_, _, rfl⟩ := hname
  obtain ⟨_, _, rfl⟩ := hname'
  rfl

/-- Nothing is flushed, or all that is pending. -/
theorem flushPrices_cases (p : FanoutProcess ι) :
    p.pending = [] ∧ p.flushPrices = (p, none) ∨
      p.pending ≠ [] ∧ (p.flushPrices).1 = { p with
        pending := []
        lastPriceFlushAt := p.now
        history := .flushed ⟨p.now, p.pending, p.cache.prices, p.buildPriceDelta p.pending⟩ :: p.history } := by
  by_cases hpending : p.pending = []
  · exact .inl ⟨hpending, if_pos hpending⟩
  · exact .inr ⟨hpending, by rw [flushPrices, if_neg hpending]⟩

theorem pending_flushPrices (p : FanoutProcess ι) : (p.flushPrices).1.pending = [] := by
  rcases p.flushPrices_cases with ⟨hpending, heq⟩ | ⟨-, heq⟩
  · rw [heq]
    exact hpending
  · rw [heq]

theorem Sound.flushPrices (hsound : p.Sound cfg) (hidle : p.priceFlushTimer = none)
    (htime : cfg.priceBroadcastMs ≤ maxTimeout → p.lastPriceFlushAt + cfg.priceBroadcastMs ≤ p.now) :
    (p.flushPrices).1.Sound cfg := by
  rcases p.flushPrices_cases with ⟨-, heq⟩ | ⟨hpending, heq⟩
  · rw [heq]
    exact hsound
  rw [heq]
  refine
    { clock := le_rfl
      due := fun _ due hdue => ?_
      nodup := List.nodup_nil
      runs := fun hpending => absurd rfl hpending
      losesNothing := fun instrument => ?_
      emptied := fun _ _ _ => rfl
      complete := fun f hf => ?_
      recent := fun f hf => ?_
      spaced := fun hfits => ?_
      placed := hsound.placed }
  · rw [hidle] at hdue
    cases hdue
  · rw [List.map_cons, FanoutEvent.toEvent, mem_outstanding_started]
    exact iff_of_false (fun h => h.2 ((hsound.losesNothing instrument).mp h.1)) List.not_mem_nil
  · rcases List.mem_cons.mp hf with rfl | hf
    · exact ⟨nodup_buildPriceDelta hsound.nodup, fun _ _ => mem_buildPriceDelta⟩
    · exact hsound.complete f hf
  · rcases List.mem_cons.mp hf with rfl | hf
    · exact le_rfl
    · exact (hsound.recent f hf).trans hsound.clock
  · refine List.pairwise_cons.mpr ⟨fun f hf => ?_, hsound.spaced hfits⟩
    exact (Nat.add_le_add_right (hsound.recent f hf) _).trans (htime hfits)

theorem Sound.queued (hsound : p.Sound cfg) (hrole : p.role.runsEngine = true) (instruments : List String) :
    { p with
      pending := PriceEngine.addAll p.pending instruments
      history := .queued instruments :: p.history }.Sound cfg where
  clock := hsound.clock
  due := hsound.due
  nodup := PriceEngine.nodup_addAll instruments hsound.nodup
  runs _ := hrole
  losesNothing instrument := by
    rw [List.map_cons, FanoutEvent.toEvent, mem_outstanding_passed, PriceEngine.mem_addAll,
      hsound.losesNothing instrument, or_comm]
  emptied f earlier hhistory := by cases (List.cons.inj hhistory).1
  complete := hsound.complete
  recent := hsound.recent
  spaced := hsound.spaced
  placed := hsound.placed

theorem Sound.queuePriceDelta (hsound : p.Sound cfg) (hrole : p.role.runsEngine = true)
    (instruments : List String) : (p.queuePriceDelta cfg instruments).1.Sound cfg := by
  have hqueued := hsound.queued hrole instruments
  have hclock := hsound.clock
  rw [FanoutProcess.queuePriceDelta]
  split
  · exact hsound
  dsimp only
  split
  · exact hqueued
  · next hidle =>
    split
    · next hwait =>
      refine hqueued.flushPrices (Option.not_isSome_iff_eq_none.mp hidle) fun _ => ?_
      have hle := Nat.sub_eq_zero_iff_le.mp hwait
      dsimp only
      omega
    · next hwait =>
      refine { hqueued with due := fun hfits due hdue => ?_ }
      obtain rfl := Option.some.inj hdue
      have hdelay : setTimeoutDelay (cfg.priceBroadcastMs + p.lastPriceFlushAt - p.now) =
          cfg.priceBroadcastMs + p.lastPriceFlushAt - p.now := if_pos (by omega)
      dsimp only
      omega

theorem call_timer (hcall : p.call cfg .timer = some (p', sent)) : ∃ due ∈ p.priceFlushTimer, due ≤ p.now ∧
    p' = ({ p with priceFlushTimer := none }.flushPrices).1 ∧
      sent = ({ p with priceFlushTimer := none }.flushPrices).2 := by
  obtain ⟨due, hdue, hfire⟩ := Option.bind_eq_some_iff.mp hcall
  split at hfire
  · next hle =>
    have heq := (Option.some.inj hfire).symm
    exact ⟨due, hdue, hle, congrArg Prod.fst heq, congrArg Prod.snd heq⟩
  · cases hfire

theorem call_queuePriceDelta {instruments : List String}
    (hcall : p.call cfg (.queuePriceDelta instruments) = some (p', sent)) :
    p.role.runsEngine = true ∧ p' = (p.queuePriceDelta cfg instruments).1 ∧
      sent = (p.queuePriceDelta cfg instruments).2 := by
  rw [call] at hcall
  split at hcall
  · next hrole =>
    have heq := (Option.some.inj hcall).symm
    exact ⟨hrole, congrArg Prod.fst heq, congrArg Prod.snd heq⟩
  · cases hcall

theorem Sound.setSockets (hsound : p.Sound cfg) {sockets : List FanoutSocket}
    (hplaced : ∀ s ∈ sockets, s.Placed) : { p with sockets := sockets }.Sound cfg :=
  { hsound with placed := hplaced }

theorem Sound.call {c : FanoutCall} (hsound : p.Sound cfg) (hcall : p.call cfg c = some (p', sent)) :
    p'.Sound cfg := by
  cases c with
  | elapse ms =>
    obtain ⟨rfl, -⟩ := Prod.mk.inj (Option.some.inj hcall)
    exact { hsound with clock := hsound.clock.trans (Nat.le_add_right _ _) }
  | updatePrices answer =>
    rw [FanoutProcess.call] at hcall
    split at hcall
    · obtain ⟨rfl, -⟩ := Prod.mk.inj (Option.some.inj hcall)
      exact { hsound with }
    · cases hcall
  | queuePriceDelta instruments =>
    obtain ⟨hrole, rfl, -⟩ := call_queuePriceDelta hcall
    exact hsound.queuePriceDelta hrole instruments
  | timer =>
    obtain ⟨due, hdue, hle, rfl, -⟩ := call_timer hcall
    have hidle : { p with priceFlushTimer := none }.Sound cfg :=
      { hsound with due := fun _ _ hnone => by cases hnone }
    exact hidle.flushPrices rfl fun hfits => (hsound.due hfits due hdue).trans hle
  | connect id userId =>
    rw [FanoutProcess.call] at hcall
    split at hcall
    · obtain ⟨rfl, -⟩ := Prod.mk.inj (Option.some.inj hcall)
      have hplaced := FanoutSocket.placed_handshake id userId
      exact hsound.setSockets (List.forall_mem_cons.mpr ⟨hplaced, hsound.placed⟩)
    · cases hcall
  | subscribe id instruments =>
    obtain ⟨rfl, -⟩ := Prod.mk.inj (Option.some.inj hcall)
    refine hsound.setSockets fun s hs => ?_
    obtain ⟨s', hs', rfl⟩ := List.mem_map.mp hs
    have hplaced := hsound.placed s' hs'
    split
    · exact hplaced.setSocketSubscriptions cfg instruments
    · exact hplaced
  | disconnect id =>
    obtain ⟨rfl, -⟩ := Prod.mk.inj (Option.some.inj hcall)
    exact hsound.setSockets fun s hs => hsound.placed s (List.mem_of_mem_filter hs)

/-! ### What a call sends -/

/-- The deltas of the flushes, without the empty ones. -/
def sentDeltas (p : FanoutProcess ι) : List PriceDelta :=
  ((p.flushes.map PriceFlush.delta).filter (·.p ≠ [])).reverse

theorem Sound.nodup_of_mem_sentDeltas (hsound : p.Sound cfg) {delta : PriceDelta}
    (hdelta : delta ∈ p.sentDeltas) : (delta.p.map Prod.fst).Nodup := by
  obtain ⟨f, hf, rfl⟩ := List.mem_map.mp (List.mem_of_mem_filter (List.mem_reverse.mp hdelta))
  exact (hsound.complete f hf).once

theorem sentDeltas_flushPrices (p : FanoutProcess ι) :
    (p.flushPrices).1.sentDeltas = p.sentDeltas ++ (p.flushPrices).2.toList := by
  rw [flushPrices]
  split
  · exact (List.append_nil _).symm
  · dsimp only
    split <;> simp [sentDeltas, flushes, FanoutEvent.flush?, *]

theorem pending_of_flushPrices {delta : PriceDelta} (hsent : (p.flushPrices).2 = some delta) :
    p.pending ≠ [] := by
  intro hpending
  rw [flushPrices, if_pos hpending] at hsent
  cases hsent

/-- What a flush and the queue leave alone. -/
structure SameElsewhere (p p' : FanoutProcess ι) : Prop where
  role : p'.role = p.role
  inbox : p'.inbox = p.inbox
  deliveries : p'.deliveries = p.deliveries

theorem sameElsewhere_flushPrices (p : FanoutProcess ι) : p.SameElsewhere (p.flushPrices).1 := by
  rcases p.flushPrices_cases with ⟨-, heq⟩ | ⟨-, heq⟩
  · rw [heq]
    exact ⟨rfl, rfl, rfl⟩
  · rw [heq]
    exact ⟨rfl, rfl, rfl⟩

/-- The queue flushes at once, or arms the timer and sends nothing. -/
theorem queuePriceDelta_cases (cfg : FanoutConfig) (p : FanoutProcess ι) (instruments : List String) :
    ∃ q, (p.queuePriceDelta cfg instruments = (q, none) ∧ (p.Armed → q.Armed) ∨
      p.queuePriceDelta cfg instruments = q.flushPrices) ∧ p.SameElsewhere q ∧ q.flushes = p.flushes := by
  rw [queuePriceDelta]
  split
  · exact ⟨p, .inl ⟨rfl, id⟩, ⟨rfl, rfl, rfl⟩, rfl⟩
  dsimp only
  split
  · next hset => exact ⟨_, .inl ⟨rfl, fun _ _ => hset⟩, ⟨rfl, rfl, rfl⟩, rfl⟩
  · split
    · exact ⟨_, .inr rfl, ⟨rfl, rfl, rfl⟩, rfl⟩
    · exact ⟨_, .inl ⟨rfl, fun _ _ => rfl⟩, ⟨rfl, rfl, rfl⟩, rfl⟩

/-- A call flushes, or it sends nothing, adds no flush and leaves a timer for what is pending. -/
theorem call_cases {c : FanoutCall} (hcall : p.call cfg c = some (p', sent)) :
    ∃ q, (p' = q ∧ sent = none ∧ (p.Armed → q.Armed) ∨ p' = (q.flushPrices).1 ∧ sent = (q.flushPrices).2) ∧
      p.SameElsewhere q ∧ q.flushes = p.flushes := by
  cases c with
  | queuePriceDelta instruments =>
    obtain ⟨-, rfl, rfl⟩ := call_queuePriceDelta hcall
    obtain ⟨q, ⟨heq, harmed⟩ | heq, hsame⟩ := queuePriceDelta_cases cfg p instruments
    · exact ⟨q, .inl (by rw [heq]; exact ⟨rfl, rfl, harmed⟩), hsame⟩
    · exact ⟨q, .inr (by rw [heq]; exact ⟨rfl, rfl⟩), hsame⟩
  | timer =>
    obtain ⟨-, -, -, rfl, rfl⟩ := call_timer hcall
    exact ⟨_, .inr ⟨rfl, rfl⟩, ⟨rfl, rfl, rfl⟩, rfl⟩
  | updatePrices answer =>
    rw [call] at hcall
    split at hcall
    · obtain ⟨rfl, rfl⟩ := Prod.mk.inj (Option.some.inj hcall)
      exact ⟨_, .inl ⟨rfl, rfl, id⟩, ⟨rfl, rfl, rfl⟩, rfl⟩
    · cases hcall
  | connect id userId =>
    rw [call] at hcall
    split at hcall
    · obtain ⟨rfl, rfl⟩ := Prod.mk.inj (Option.some.inj hcall)
      exact ⟨_, .inl ⟨rfl, rfl, fun harmed => harmed⟩, ⟨rfl, rfl, rfl⟩, rfl⟩
    · cases hcall
  | elapse ms =>
    obtain ⟨rfl, rfl⟩ := Prod.mk.inj (Option.some.inj hcall)
    exact ⟨_, .inl ⟨rfl, rfl, id⟩, ⟨rfl, rfl, rfl⟩, rfl⟩
  | subscribe id instruments =>
    obtain ⟨rfl, rfl⟩ := Prod.mk.inj (Option.some.inj hcall)
    exact ⟨_, .inl ⟨rfl, rfl, fun harmed => harmed⟩, ⟨rfl, rfl, rfl⟩, rfl⟩
  | disconnect id =>
    obtain ⟨rfl, rfl⟩ := Prod.mk.inj (Option.some.inj hcall)
    exact ⟨_, .inl ⟨rfl, rfl, fun harmed => harmed⟩, ⟨rfl, rfl, rfl⟩, rfl⟩

theorem Armed.call {c : FanoutCall} (harmed : p.Armed) (hcall : p.call cfg c = some (p', sent)) :
    p'.Armed := by
  obtain ⟨q, ⟨rfl, -, hkept⟩ | ⟨rfl, -⟩, -⟩ := call_cases hcall
  · exact hkept harmed
  · exact fun hpending => absurd (pending_flushPrices q) hpending

theorem sameElsewhere_call {c : FanoutCall} (hcall : p.call cfg c = some (p', sent)) :
    p.SameElsewhere p' := by
  obtain ⟨q, ⟨rfl, -⟩ | ⟨rfl, -⟩, hsame, -⟩ := call_cases hcall
  · exact hsame
  · obtain ⟨hrole, hinbox, hdeliveries⟩ := sameElsewhere_flushPrices q
    exact ⟨hrole.trans hsame.role, hinbox.trans hsame.inbox, hdeliveries.trans hsame.deliveries⟩

theorem sentDeltas_call {c : FanoutCall} (hcall : p.call cfg c = some (p', sent)) :
    p'.sentDeltas = p.sentDeltas ++ sent.toList := by
  obtain ⟨q, ⟨rfl, rfl, -⟩ | ⟨rfl, rfl⟩, -, hflushes⟩ := call_cases hcall
  · rw [sentDeltas, hflushes]
    exact (List.append_nil _).symm
  · rw [sentDeltas_flushPrices, sentDeltas, hflushes, sentDeltas]

/-- Only an engine sends. -/
theorem Sound.runs_of_call {c : FanoutCall} {delta : PriceDelta} (hsound : p.Sound cfg)
    (hcall : p.call cfg c = some (p', some delta)) : p.role.runsEngine = true := by
  cases c with
  | queuePriceDelta instruments => exact (call_queuePriceDelta hcall).1
  | timer =>
    obtain ⟨-, -, -, -, hsent⟩ := call_timer hcall
    have hpending := pending_of_flushPrices hsent.symm
    exact hsound.runs hpending
  | updatePrices answer =>
    rw [FanoutProcess.call] at hcall
    split at hcall <;> cases hcall
  | connect id userId =>
    rw [FanoutProcess.call] at hcall
    split at hcall <;> cases hcall
  | elapse ms => cases hcall
  | subscribe id instruments => cases hcall
  | disconnect id => cases hcall

end FanoutProcess

end PropFirm
