import Mathlib
import PropFirm.Lib.Transition
import PropFirm.RealtimeFanout

/-!
# The fan-out across instances

The instances of a deployment are joined by the Redis bridge. A delta is written to the local sockets of the
process that flushed it, unless that is an engine, and published; the bridge hands the message to every
instance that consumes, in any order and after any time, and each of them writes it to its own sockets unless
it is the origin.

Messages and frames are not dropped. All deltas are numbered as they are sent.
-/

namespace PropFirm

open Transition

variable {ι : Type*}

/-- The delivery wrote the frames of the delta it counts, to sockets in their rooms. -/
structure PriceDelivery.Faithful (deltas : List (ι × PriceDelta)) (d : PriceDelivery) : Prop where
  counted : ∃ origin, deltas[d.number]? = some (origin, d.delta)
  frames : d.frames = d.delta.frames
  placed : ∀ s ∈ d.sockets, s.Placed

namespace FanoutProcess

/-- The bridge delivers to those that subscribed. -/
def enqueue (p : FanoutProcess ι) (m : PriceMessage ι) : FanoutProcess ι :=
  if p.role.consumes then { p with inbox := p.inbox ++ [m] } else p

/-- The handler of the subscription; `i` is the `INSTANCE_ID` of this process. -/
def receive [DecidableEq ι] (p : FanoutProcess ι) (i : ι) (k : Nat) (m : PriceMessage ι) : FanoutProcess ι :=
  if m.origin = i then { p with inbox := p.inbox.eraseIdx k }
  else { p with inbox := p.inbox.eraseIdx k }.deliverPriceDelta m.number m.delta

end FanoutProcess

structure FanoutWorld (ι : Type*) where
  processes : ι → FanoutProcess ι
  deltas : List (ι × PriceDelta)

inductive FanoutAction (ι : Type*)
  | call (i : ι) (c : FanoutCall)
  | receive (i : ι) (k : Nat)

namespace FanoutWorld

variable [DecidableEq ι]

/-- The end of a flush: local sockets first, then the bridge. -/
def send (w : FanoutWorld ι) (i : ι) (p : FanoutProcess ι) (delta : PriceDelta) : FanoutWorld ι :=
  let delivered := if p.role.publishesRealtimeOverRedis then p else p.deliverPriceDelta w.deltas.length delta
  let processes := Function.update w.processes i delivered
  { processes :=
      if p.role.publishes then fun j => (processes j).enqueue ⟨i, w.deltas.length, delta⟩ else processes
    deltas := w.deltas ++ [(i, delta)] }

def finish (w : FanoutWorld ι) (i : ι) (p : FanoutProcess ι) : Option PriceDelta → FanoutWorld ι
  | none => { w with processes := Function.update w.processes i p }
  | some delta => w.send i p delta

def step (cfg : FanoutConfig) (w : FanoutWorld ι) : FanoutAction ι → Option (FanoutWorld ι)
  | .call i c => ((w.processes i).call cfg c).map fun r => w.finish i r.1 r.2
  | .receive i k => ((w.processes i).inbox[k]?).map fun m =>
    { w with processes := Function.update w.processes i ((w.processes i).receive i k m) }

end FanoutWorld

/-! ### What a process has of the deltas -/

section Bridge

variable {deltas : List (ι × PriceDelta)} {i : ι} {p : FanoutProcess ι} {delta : PriceDelta}

theorem getElem?_sent {n : Nat} {origin : ι} (hn : deltas[n]? = some (origin, delta))
    (sent : ι × PriceDelta) : (deltas ++ [sent])[n]? = some (origin, delta) :=
  (List.getElem?_append_left (List.getElem?_eq_some_iff.mp hn).1).trans hn

theorem PriceDelivery.Faithful.sent {d : PriceDelivery} (hfaithful : d.Faithful deltas)
    (sent : ι × PriceDelta) : d.Faithful (deltas ++ [sent]) :=
  { hfaithful with counted := hfaithful.counted.imp fun _ hn => getElem?_sent hn sent }

namespace FanoutProcess

theorem messages_enqueue (hmessages : ∀ m ∈ p.inbox, deltas[m.number]? = some (m.origin, m.delta)) :
    ∀ m ∈ (p.enqueue ⟨i, deltas.length, delta⟩).inbox,
      (deltas ++ [(i, delta)])[m.number]? = some (m.origin, m.delta) := by
  intro m hm
  rw [enqueue] at hm
  split at hm
  · rcases List.mem_append.mp hm with hm | hm
    · exact getElem?_sent (hmessages m hm) _
    · obtain rfl := List.mem_singleton.mp hm
      exact List.getElem?_concat_length
  · exact getElem?_sent (hmessages m hm) _

theorem deliveries_enqueue (p : FanoutProcess ι) (m : PriceMessage ι) :
    (p.enqueue m).deliveries = p.deliveries := by
  rw [enqueue]
  split
  · rfl
  · rfl

theorem role_enqueue (p : FanoutProcess ι) (m : PriceMessage ι) : (p.enqueue m).role = p.role := by
  rw [enqueue]
  split
  · rfl
  · rfl

/-- The two differ in what the bridge has for the process and what it delivered. -/
def Bridged (p p' : FanoutProcess ι) : Prop :=
  ∃ inbox deliveries, p' = { p with inbox := inbox, deliveries := deliveries }

theorem bridged_enqueue (p : FanoutProcess ι) (m : PriceMessage ι) : p.Bridged (p.enqueue m) := by
  rw [enqueue]
  split
  · exact ⟨_, _, rfl⟩
  · exact ⟨_, _, rfl⟩

theorem bridged_sent (p : FanoutProcess ι) (number : Nat) (delta : PriceDelta) (m : PriceMessage ι) :
    p.Bridged
      ((if p.role.publishesRealtimeOverRedis then p else p.deliverPriceDelta number delta).enqueue m) := by
  split
  · exact p.bridged_enqueue m
  · obtain ⟨inbox, deliveries, heq⟩ := (p.deliverPriceDelta number delta).bridged_enqueue m
    exact ⟨inbox, deliveries, heq⟩

theorem bridged_receive [DecidableEq ι] (p : FanoutProcess ι) (k : Nat) (m : PriceMessage ι) :
    p.Bridged (p.receive i k m) := by
  rw [receive]
  split
  · exact ⟨_, _, rfl⟩
  · exact ⟨_, _, rfl⟩

end FanoutProcess

end Bridge

namespace FanoutProcess

variable [DecidableEq ι]

def delivered (p : FanoutProcess ι) : List Nat := p.deliveries.map PriceDelivery.number

/-- The messages of others that the bridge has for the process. -/
def waiting (p : FanoutProcess ι) (i : ι) : List Nat :=
  (p.inbox.filter (·.origin ≠ i)).map PriceMessage.number

/-- A process that serves sockets has each delta once: it is written to its sockets or in a message to it. -/
structure Joined (deltas : List (ι × PriceDelta)) (i : ι) (p : FanoutProcess ι) : Prop where
  messages : ∀ m ∈ p.inbox, deltas[m.number]? = some (m.origin, m.delta)
  deliveries : ∀ d ∈ p.deliveries, d.Faithful deltas
  once : p.role.servesSockets = true → (p.delivered ++ p.waiting i).Perm (List.range deltas.length)

variable {deltas : List (ι × PriceDelta)} {i j : ι} {p p' : FanoutProcess ι}

theorem Joined.same (hjoined : p.Joined deltas i) (hsame : p.SameElsewhere p') : p'.Joined deltas i := by
  obtain ⟨hrole, hinbox, hdeliveries⟩ := hsame
  constructor
  · rw [hinbox]
    exact hjoined.messages
  · rw [hdeliveries]
    exact hjoined.deliveries
  · rw [hrole, delivered, waiting, hinbox, hdeliveries]
    exact hjoined.once

/-- Who serves sockets consumes, and the message waits unless it is the process's own. -/
theorem waiting_enqueue (hserves : p.role.servesSockets = true) (m : PriceMessage ι) :
    (p.enqueue m).waiting i = p.waiting i ++ if m.origin = i then [] else [m.number] := by
  have hconsumes : p.role.consumes = true := hserves
  rw [enqueue, if_pos hconsumes, waiting, List.filter_append, List.map_append]
  by_cases horigin : m.origin = i
  · simp [waiting, horigin]
  · simp [waiting, horigin]

/-- A delta sent by another instance. -/
theorem Joined.sent_by_other (hjoined : p.Joined deltas j) (delta : PriceDelta) (hne : i ≠ j) :
    (p.enqueue ⟨i, deltas.length, delta⟩).Joined (deltas ++ [(i, delta)]) j := by
  refine ⟨messages_enqueue hjoined.messages, fun d hd => ?_, fun hserves => ?_⟩
  · rw [deliveries_enqueue] at hd
    exact (hjoined.deliveries d hd).sent _
  · rw [role_enqueue] at hserves
    rw [delivered, deliveries_enqueue, waiting_enqueue hserves, if_neg hne, List.length_append,
      List.length_singleton, List.range_succ, ← List.append_assoc]
    exact (hjoined.once hserves).append_right _

/-- A delta sent by this process; its own message comes back to it if it consumes. -/
theorem Joined.sent_by_self (hjoined : p.Joined deltas i) (delta : PriceDelta)
    (hplaced : ∀ s ∈ p.sockets, s.Placed) :
    ((if p.role.publishesRealtimeOverRedis then p else p.deliverPriceDelta deltas.length delta).enqueue
      ⟨i, deltas.length, delta⟩).Joined (deltas ++ [(i, delta)]) i := by
  have hold : ∀ d ∈ p.deliveries, d.Faithful (deltas ++ [(i, delta)]) :=
    fun d hd => (hjoined.deliveries d hd).sent _
  by_cases hengine : p.role.publishesRealtimeOverRedis = true
  · rw [if_pos hengine]
    refine ⟨messages_enqueue hjoined.messages, by rwa [deliveries_enqueue], fun hserves => ?_⟩
    have hrole : p.role = .engine := of_decide_eq_true hengine
    rw [role_enqueue, hrole] at hserves
    cases hserves
  · rw [if_neg hengine]
    refine ⟨messages_enqueue hjoined.messages, ?_, fun hserves => ?_⟩
    · rw [deliveries_enqueue]
      exact List.forall_mem_cons.mpr ⟨⟨⟨i, List.getElem?_concat_length⟩, rfl, hplaced⟩, hold⟩
    · rw [role_enqueue] at hserves
      rw [delivered, deliveries_enqueue, waiting_enqueue hserves, if_pos rfl, List.append_nil,
        List.length_append, List.length_singleton, List.range_succ]
      exact ((hjoined.once hserves).cons _).trans (List.perm_append_singleton _ _).symm

/-- A message that the process takes from the bridge. -/
theorem Joined.receive {k : Nat} {m : PriceMessage ι} (hjoined : p.Joined deltas i)
    (hplaced : ∀ s ∈ p.sockets, s.Placed) (hm : p.inbox[k]? = some m) :
    (p.receive i k m).Joined deltas i := by
  obtain ⟨hk, hget⟩ := List.getElem?_eq_some_iff.mp hm
  have hmessage := hjoined.messages m (List.mem_of_getElem? hm)
  have hrest : ∀ m' ∈ p.inbox.eraseIdx k, deltas[m'.number]? = some (m'.origin, m'.delta) :=
    fun m' hm' => hjoined.messages m' (List.mem_of_mem_eraseIdx hm')
  have hinbox : (m :: p.inbox.eraseIdx k).Perm p.inbox := hget ▸ List.getElem_cons_eraseIdx_perm hk
  have hwaiting : (((m :: p.inbox.eraseIdx k).filter (·.origin ≠ i)).map PriceMessage.number).Perm
      (p.waiting i) := (hinbox.filter _).map _
  rw [FanoutProcess.receive]
  split
  · next horigin =>
    refine ⟨hrest, hjoined.deliveries, fun hserves => ?_⟩
    rw [List.filter_cons_of_neg (by simpa using horigin)] at hwaiting
    exact (hwaiting.append_left _).trans (hjoined.once hserves)
  · next horigin =>
    have hfaithful : PriceDelivery.Faithful deltas ⟨m.number, m.delta, m.delta.frames, p.sockets⟩ :=
      ⟨⟨m.origin, hmessage⟩, rfl, hplaced⟩
    refine ⟨hrest, List.forall_mem_cons.mpr ⟨hfaithful, hjoined.deliveries⟩, fun hserves => ?_⟩
    rw [List.filter_cons_of_pos (by simpa using horigin), List.map_cons] at hwaiting
    exact (List.perm_middle.symm.trans (hwaiting.append_left _)).trans (hjoined.once hserves)

end FanoutProcess

/-- The deltas that an instance has sent, in their order. -/
def sentBy [DecidableEq ι] (deltas : List (ι × PriceDelta)) (i : ι) : List PriceDelta :=
  (deltas.filter (·.1 = i)).map Prod.snd

theorem sentBy_append [DecidableEq ι] (deltas : List (ι × PriceDelta)) (i j : ι) (delta : PriceDelta) :
    sentBy (deltas ++ [(i, delta)]) j = sentBy deltas j ++ if i = j then [delta] else [] := by
  rw [sentBy, List.filter_append, List.map_append]
  by_cases hij : i = j
  · simp [sentBy, hij]
  · simp [sentBy, hij]

/-- What holds of process `i` when these are the deltas sent so far. -/
structure FanoutProcess.Member [DecidableEq ι] (cfg : FanoutConfig) (deltas : List (ι × PriceDelta)) (i : ι)
    (p : FanoutProcess ι) : Prop where
  sound : p.Sound cfg
  armed : p.Armed
  joined : p.Joined deltas i
  sent : sentBy deltas i = p.sentDeltas

namespace FanoutWorld

variable [DecidableEq ι] {cfg : FanoutConfig} {w w' : FanoutWorld ι} {a : FanoutAction ι}

def Inv (cfg : FanoutConfig) (w : FanoutWorld ι) : Prop := ∀ i, (w.processes i).Member cfg w.deltas i

theorem Inv.update {i : ι} {p : FanoutProcess ι} (hinv : w.Inv cfg) (hp : p.Member cfg w.deltas i) :
    Inv cfg { w with processes := Function.update w.processes i p } := by
  intro j
  dsimp only
  by_cases hj : j = i
  · subst hj
    rwa [Function.update_self]
  · rw [Function.update_of_ne hj]
    exact hinv j

/-- The end of a flush, of which process `i` has got as far as `p`. -/
theorem Inv.send {i : ι} {p : FanoutProcess ι} {delta : PriceDelta} (hinv : w.Inv cfg) (hsound : p.Sound cfg)
    (harmed : p.Armed) (hjoined : p.Joined w.deltas i) (hpublishes : p.role.publishes = true)
    (hsent : p.sentDeltas = (w.processes i).sentDeltas ++ [delta]) : (w.send i p delta).Inv cfg := by
  intro j
  rw [FanoutWorld.send, if_pos hpublishes]
  dsimp only
  by_cases hj : j = i
  · subst hj
    have hself := hjoined.sent_by_self delta hsound.placed
    have hledger : sentBy (w.deltas ++ [(j, delta)]) j = p.sentDeltas := by
      rw [sentBy_append, if_pos rfl, (hinv j).sent, hsent]
    obtain ⟨inbox, deliveries, heq⟩ := p.bridged_sent w.deltas.length delta ⟨j, w.deltas.length, delta⟩
    rw [Function.update_self]
    rw [heq] at hself ⊢
    exact ⟨{ hsound with }, harmed, hself, hledger⟩
  · have hother := (hinv j).joined.sent_by_other delta (Ne.symm hj)
    have hledger : sentBy (w.deltas ++ [(i, delta)]) j = (w.processes j).sentDeltas := by
      rw [sentBy_append, if_neg (Ne.symm hj), List.append_nil, (hinv j).sent]
    obtain ⟨inbox, deliveries, heq⟩ := (w.processes j).bridged_enqueue ⟨i, w.deltas.length, delta⟩
    rw [Function.update_of_ne hj]
    rw [heq] at hother ⊢
    exact ⟨{ (hinv j).sound with }, (hinv j).armed, hother, hledger⟩

theorem Inv.receive {i : ι} {k : Nat} {m : PriceMessage ι} (hinv : w.Inv cfg)
    (hm : (w.processes i).inbox[k]? = some m) :
    ((w.processes i).receive i k m).Member cfg w.deltas i := by
  obtain ⟨hsound, harmed, hjoined, hsent⟩ := hinv i
  have hreceived := hjoined.receive hsound.placed hm
  obtain ⟨inbox, deliveries, heq⟩ := (w.processes i).bridged_receive k m
  rw [heq] at hreceived ⊢
  exact ⟨{ hsound with }, harmed, hreceived, hsent⟩

theorem Inv.step (hinv : w.Inv cfg) (hstep : w.step cfg a = some w') : w'.Inv cfg := by
  cases a with
  | call i c =>
    obtain ⟨⟨p, sent⟩, hcall, rfl⟩ := Option.map_eq_some_iff.mp hstep
    obtain ⟨hsound, harmed, hjoined, hsent⟩ := hinv i
    have hsame := FanoutProcess.sameElsewhere_call hcall
    have hledger := FanoutProcess.sentDeltas_call hcall
    cases sent with
    | none =>
      rw [Option.toList_none, List.append_nil] at hledger
      exact hinv.update ⟨hsound.call hcall, harmed.call hcall, hjoined.same hsame, hsent.trans hledger.symm⟩
    | some delta =>
      have hpublishes : p.role.publishes = true := by
        have hruns := hsound.runs_of_call hcall
        rw [← hsame.role] at hruns
        exact hruns
      exact hinv.send (hsound.call hcall) (harmed.call hcall) (hjoined.same hsame) hpublishes hledger
  | receive i k =>
    obtain ⟨m, hm, rfl⟩ := Option.map_eq_some_iff.mp hstep
    exact hinv.update (hinv.receive hm)

/-- Freshly started processes of any roles, with their clocks anywhere. -/
def Booted (w : FanoutWorld ι) : Prop := (∀ i, (w.processes i).Fresh) ∧ w.deltas = []

theorem Booted.inv (hbooted : w.Booted) : w.Inv cfg := by
  obtain ⟨hfresh, hdeltas⟩ := hbooted
  intro i
  have hflushes := (hfresh i).flushes
  obtain ⟨hpending, -, -, -, hinbox, -, hdeliveries⟩ := hfresh i
  refine ⟨(hfresh i).sound, fun hne => absurd hpending hne, ⟨fun m hm => ?_, fun d hd => ?_, fun _ => ?_⟩, ?_⟩
  · rw [hinbox] at hm
    cases hm
  · rw [hdeliveries] at hd
    cases hd
  · rw [FanoutProcess.delivered, FanoutProcess.waiting, hdeliveries, hinbox, hdeltas]
    exact List.Perm.refl _
  · rw [sentBy, FanoutProcess.sentDeltas, hdeltas, hflushes]
    rfl

/-- The fan-out loses and duplicates nothing.

Within a process: the timer is armed while anything is pending, what is pending is what was queued and not
flushed since, a flush leaves nothing pending and has each pending instrument with its cached quote once, all
flushes that are not empty are sent, and flushes keep their distance unless it is more than a timer can wait.

Across processes: a socket that follows prices is in one feed, each delta is once at every instance that
serves sockets, written or on its way, and a socket got the quotes that it wanted from each delta written. -/
structure Right (cfg : FanoutConfig) (w : FanoutWorld ι) : Prop where
  armed : ∀ i, (w.processes i).Armed
  losesNothing : ∀ i, (w.processes i).LosesNothing
  emptied : ∀ i f earlier, (w.processes i).history = .flushed f :: earlier → (w.processes i).pending = []
  complete : ∀ i, ∀ f ∈ (w.processes i).flushes, f.Complete
  sent : ∀ i, sentBy w.deltas i = (w.processes i).sentDeltas
  spaced : cfg.priceBroadcastMs ≤ maxTimeout → ∀ i, (w.processes i).Spaced cfg
  inOneFeed : ∀ i, ∀ s ∈ (w.processes i).sockets, s.Follows → s.InOneFeed
  once : ∀ i, (w.processes i).role.servesSockets = true →
    ((w.processes i).delivered ++ (w.processes i).waiting i).Perm (List.range w.deltas.length)
  received : ∀ i, ∀ d ∈ (w.processes i).deliveries, (∃ origin, w.deltas[d.number]? = some (origin, d.delta)) ∧
    (d.delta.p.map Prod.fst).Nodup ∧ ∀ s ∈ d.sockets,
      (s.Follows → s.quotesFrom d.frames = d.delta.p.filter fun entry => s.Wants entry.1) ∧
        (¬ s.Follows → s.quotesFrom d.frames = [])

theorem Inv.right (hinv : w.Inv cfg) : w.Right cfg where
  armed i := (hinv i).armed
  losesNothing i := (hinv i).sound.losesNothing
  emptied i := (hinv i).sound.emptied
  complete i := (hinv i).sound.complete
  sent i := (hinv i).sent
  spaced hfits i := (hinv i).sound.spaced hfits
  inOneFeed i s hs := ((hinv i).sound.placed s hs).inOneFeed
  once i := (hinv i).joined.once
  received i d hd := by
    obtain ⟨⟨origin, hdelta⟩, hframes, hplaced⟩ := (hinv i).joined.deliveries d hd
    have hsent : d.delta ∈ (w.processes origin).sentDeltas := by
      rw [← (hinv origin).sent, sentBy]
      refine List.mem_map.mpr ⟨(origin, d.delta), List.mem_filter.mpr ⟨List.mem_of_getElem? hdelta, ?_⟩, rfl⟩
      exact decide_eq_true rfl
    refine ⟨⟨origin, hdelta⟩, (hinv origin).sound.nodup_of_mem_sentDeltas hsent, fun s hs => ?_⟩
    rw [hframes]
    exact ⟨fun hfollows => FanoutSocket.quotesFrom_eq (hplaced s hs) hfollows d.delta,
      fun hfollows => FanoutSocket.quotesFrom_eq_nil (hplaced s hs) hfollows _⟩

theorem right_of_reach (hreach : Reach (step cfg) (fun _ _ => True) Booted w) : w.Right cfg := by
  have hinv : w.Inv cfg := by
    refine hreach.invariant (fun s hbooted => ?_) fun s a s' hs _ hstep => ?_
    · exact Booted.inv hbooted
    · exact Inv.step hs hstep
  exact hinv.right

/-! ### An admin's socket, and a timer that is too long -/

def freshProcess (role : ProcessRole) : FanoutProcess ι := ⟨role, 0, ⟨∅, []⟩, [], none, 0, [], [], [], []⟩

omit [DecidableEq ι] in
theorem freshProcess_fresh (role : ProcessRole) : (freshProcess role : FanoutProcess ι).Fresh :=
  ⟨rfl, rfl, rfl, rfl, rfl, rfl, rfl⟩

def oneProcess : FanoutWorld Unit := ⟨fun _ => freshProcess .all, []⟩

/-- Two flushes, the second one by a timer for three billion milliseconds. -/
def longTimer : List (FanoutAction Unit) :=
  [.call () (.elapse 4000000000), .call () (.queuePriceDelta ["EURUSD"]),
    .call () (.queuePriceDelta ["EURUSD"]), .call () (.elapse 1), .call () .timer]

/-- The socket of an admin is in no feed, and a timer that overflows fires at once. -/
theorem adminSocket_in_no_feed_and_longTimer_at_once :
    (∃ w, run (step ⟨250, id⟩) oneProcess [.call () (.connect 1 none)] = some w ∧
      ∃ s ∈ (w.processes ()).sockets, ¬ Xor (allPricesRoom ∈ s.rooms)
        (s.subscription ≠ [] ∧ ∀ instrument ∈ s.subscription, priceRoom instrument ∈ s.rooms)) ∧
    ∃ w, run (step ⟨3000000000, id⟩) oneProcess longTimer = some w ∧
      ¬ (w.processes ()).Spaced ⟨3000000000, id⟩ := by
  constructor
  · refine ⟨_, rfl, FanoutSocket.handshake 1 none, List.mem_cons_self, ?_⟩
    rintro (⟨hall, -⟩ | ⟨⟨hnone, -⟩, -⟩)
    · exact Finset.notMem_empty _ hall
    · exact hnone rfl
  · obtain ⟨w, hrun, htest⟩ := exists_of_run_any (step ⟨3000000000, id⟩) oneProcess longTimer
      (fun w => ¬ (w.processes ()).Spaced ⟨3000000000, id⟩) (by decide +kernel)
    exact ⟨w, hrun, of_decide_eq_true htest⟩

/-! ### Two instances -/

def twoProcesses : FanoutWorld Bool := ⟨fun _ => freshProcess .all, []⟩

theorem twoProcesses_booted : twoProcesses.Booted := ⟨fun _ => freshProcess_fresh .all, rfl⟩

def euroQuote : PriceMap := [⟨"EURUSD", some ⟨11 / 10, 11 / 10, 1⟩⟩].toAList

/-- A trader at each instance, one of them with a subscription, and a delta that both instances get from the
bridge. -/
def oneDelta : List (FanoutAction Bool) :=
  [.call true (.connect 1 (some "trader")), .call false (.connect 2 (some "other")),
    .call false (.subscribe 2 (some ["EURUSD"])), .call true (.elapse 1000),
    .call true (.updatePrices (some euroQuote)), .call true (.queuePriceDelta ["EURUSD"]), .receive true 0,
    .receive false 0]

theorem oneDelta_right : ∃ w, run (step ⟨250, id⟩) twoProcesses oneDelta = some w ∧ w.Right ⟨250, id⟩ ∧
    (w.processes true).delivered = [0] ∧ (w.processes false).delivered = [0] := by
  obtain ⟨w, hrun, htest⟩ := exists_of_run_any (step ⟨250, id⟩) twoProcesses oneDelta
    (fun w => (w.processes true).delivered = [0] ∧ (w.processes false).delivered = [0]) (by decide +kernel)
  have hany : RunOk (step ⟨250, id⟩) (fun _ _ => True) twoProcesses oneDelta :=
    .of_forall fun _ _ _ => trivial
  exact ⟨w, hrun, right_of_reach (.of_run (.init twoProcesses_booted) hany hrun), of_decide_eq_true htest⟩

end FanoutWorld

end PropFirm
