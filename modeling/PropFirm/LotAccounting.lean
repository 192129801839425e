import PropFirm.TradeRuns

/-!
# Lots are booked once

The lots booked on a position, over its own close and the parts split off it, together with the lots
its row still holds, are the lots it was opened with; and every booking is for what the locked row
held. This rests on two things the code takes for granted. The closes that price from an earlier read
must find the row at the size they read, since what they re-read under the lock is its status alone.
And the lots a trader asks to close must be hundredths, since the remainder is rounded to hundredths
and the step test of `isValidLotSize` rejects nothing.
-/

namespace PropFirm

open Transition

/-! ### The lot grid -/

/-- A whole number of hundredths. -/
def OnLotGrid (x : ℚ) : Prop := roundLots x = x

instance (x : ℚ) : Decidable (OnLotGrid x) := inferInstanceAs (Decidable (_ = _))

theorem onLotGrid_iff {x : ℚ} : OnLotGrid x ↔ ∃ n : ℤ, x = n / 100 := by
  constructor
  · exact fun hgrid => ⟨roundHalfAway (x * 100), hgrid.symm⟩
  · rintro ⟨n, rfl⟩
    rw [OnLotGrid, roundLots, div_mul_cancel₀ _ (by norm_num), roundHalfAway_intCast]

theorem OnLotGrid.sub {x y : ℚ} (hx : OnLotGrid x) (hy : OnLotGrid y) : OnLotGrid (x - y) := by
  obtain ⟨n, rfl⟩ := onLotGrid_iff.mp hx
  obtain ⟨m, rfl⟩ := onLotGrid_iff.mp hy
  exact onLotGrid_iff.mpr ⟨n - m, by push_cast; ring⟩

theorem OnLotGrid.toLots_eq {x : ℚ} (hx : OnLotGrid x) : toLots x = x := by
  obtain ⟨n, rfl⟩ := onLotGrid_iff.mp hx
  have hcast : (n : ℚ) / 100 * 10000 = ((n * 100 : ℤ) : ℚ) := by
    push_cast
    ring
  rw [toLots, hcast, roundHalfAway_intCast]
  push_cast
  ring

/-- The lots of a fresh row are positive and on the grid: its step was checked when it was opened. -/
theorem Trade.Fresh.onLotGrid {t : Trade} (hfresh : t.Fresh) : 0 < t.lotSize ∧ OnLotGrid t.lotSize := by
  obtain ⟨lots, hvalid, hstep, hlots⟩ := hfresh.lots
  obtain ⟨hmin, _⟩ := (isValidLotSize_iff lots).mp hvalid
  obtain ⟨hlow, hhigh⟩ := abs_le.mp (of_decide_eq_true hstep)
  have hround : roundHalfAway (lots * 10000) = jsRound (lots * 100) * 100 := by
    refine roundHalfAway_eq_of_abs_sub_lt (abs_lt.mpr ⟨?_, ?_⟩)
    · push_cast
      linarith
    · push_cast
      linarith
  have hgrid : t.lotSize = (jsRound (lots * 100) : ℚ) / 100 := by
    rw [hlots, toLots, hround]
    push_cast
    ring
  refine ⟨?_, onLotGrid_iff.mpr ⟨_, hgrid⟩⟩
  rw [hgrid]
  linarith

theorem partialCommission_self {t : Trade} (hpos : 0 < t.lotSize) :
    partialCommission t t.lotSize = t.commission := by
  rw [partialCommission, div_self hpos.ne', mul_one, toCents_dollars]

/-! ### Booked and held lots -/

namespace Db

/-- The lots booked on a position, by its own close and by the closes of the parts split off it. -/
def bookedLots (db : Db) (positionId : Nat) : ℚ :=
  ((db.booked.filter fun b => b.positionId = positionId).map Booking.lots).sum

def bookedRows (db : Db) : List Nat := db.booked.map Booking.tradeId

/-- The lots of a position that are still to be booked. -/
def heldLots (db : Db) (positionId : Nat) : ℚ :=
  if positionId ∈ db.bookedRows then 0 else ((db.trade? positionId).map Trade.lotSize).getD 0

theorem heldLots_eq {db : Db} {id : Nat} {t : Trade} (hnew : id ∉ db.bookedRows)
    (ht : db.trade? id = some t) : db.heldLots id = t.lotSize := by
  rw [heldLots, if_neg hnew, ht, Option.map_some, Option.getD_some]

end Db

/-- The close booked the lots and commission the locked row gave up, at the profit they make. -/
structure Booking.Exact (b : Booking) : Prop where
  lots : b.lots = b.heldLots
  commission : b.commission = b.heldCommission
  pnl : ∀ p, b.priced = some p → p.pnl b.heldLots b.heldCommission = some b.pnl

/-- No lot is booked twice, and every close books what it takes. -/
structure LotsBookedOnce (db : Db) : Prop where
  bounded : ∀ o ∈ db.openedLots, db.bookedLots o.positionId ≤ o.lots
  exact : ∀ b ∈ db.booked, b.Exact

instance (b : Booking) : Decidable b.Exact :=
  decidable_of_iff (b.lots = b.heldLots ∧ b.commission = b.heldCommission ∧
      b.priced.all fun p => p.pnl b.heldLots b.heldCommission = some b.pnl)
    ⟨fun h => ⟨h.1, h.2.1, by simpa [Option.all_eq_true] using h.2.2⟩,
      fun h => ⟨h.lots, h.commission, by simpa [Option.all_eq_true] using h.pnl⟩⟩

instance (db : Db) : Decidable (LotsBookedOnce db) :=
  decidable_of_iff (_ ∧ _) ⟨fun h => ⟨h.1, h.2⟩, fun h => ⟨h.bounded, h.exact⟩⟩

structure LotsKept (db : Db) : Prop where
  grid : ∀ t ∈ db.trades.rows, 0 < t.lotSize ∧ OnLotGrid t.lotSize
  live : ∀ t ∈ db.trades.rows, t.status = .opened ∨ t.status = .pending → t.id ∉ db.bookedRows
  exact : ∀ b ∈ db.booked, b.Exact
  booked : ∀ b ∈ db.booked, (db.trade? b.tradeId).isSome ∧ (db.trade? b.positionId).isSome
  opened : ∀ o ∈ db.openedLots, (db.trade? o.positionId).isSome
  total : ∀ o ∈ db.openedLots, db.bookedLots o.positionId + db.heldLots o.positionId = o.lots

/-- The closing takes this much off a row that has not been booked. -/
structure Closing.Takes (c : Closing) (db : Db) (lots : ℚ) (commission : Cents) : Prop where
  priced : c.Priced
  unbooked : c.trade.id ∉ db.bookedRows
  held : ∃ row, db.trade? c.trade.id = some row ∧ row.lotSize = c.trade.lotSize + lots ∧
    row.commission = c.trade.commission + commission

def Stmt.LotsOk (db : Db) : Stmt → Prop
  | .insertTrade t => 0 < t.lotSize ∧ OnLotGrid t.lotSize
  | .fillTrade id _ _ => ∀ row, db.trade? id = some row → row.status = .pending
  | .closeTrades closings _ _ =>
    (closings.map fun c => c.trade.id).Nodup ∧ ∀ c ∈ closings, c.Takes db 0 0
  | .splitTrade part c lots commission =>
    part.status = .closed ∧ (0 < part.lotSize ∧ OnLotGrid part.lotSize) ∧ (0 < lots ∧ OnLotGrid lots) ∧
      c.Takes db lots commission
  | _ => True

namespace Stmt

variable {db db' : Db} {stmt : Stmt}

private theorem rowUpdate_grid (hok : stmt.LotsOk db) {t : Trade}
    (hgrid : 0 < t.lotSize ∧ OnLotGrid t.lotSize) :
    0 < (stmt.rowUpdate t).lotSize ∧ OnLotGrid (stmt.rowUpdate t).lotSize := by
  cases stmt with
  | closeTrades closings now clear =>
    simp only [rowUpdate]
    cases closings.find? fun c => c.trade.id = t.id with
    | none => exact hgrid
    | some c => exact hgrid
  | splitTrade part c lots commission =>
    simp only [rowUpdate]
    split
    · exact hok.2.2.1
    · exact hgrid
  | fillTrade | cancelTrades | deferTrade =>
    simp only [rowUpdate]
    split <;> exact hgrid
  | _ => exact hgrid

private theorem rowUpdate_live (hok : stmt.LotsOk db) {t : Trade} (ht : t ∈ db.trades.rows)
    (hlive : (stmt.rowUpdate t).status = .opened ∨ (stmt.rowUpdate t).status = .pending) :
    (t.status = .opened ∨ t.status = .pending) ∧
      ∀ closings now clear, stmt = .closeTrades closings now clear →
        ∀ c ∈ closings, c.trade.id ≠ t.id := by
  constructor
  · rcases hlive with hopen | hpending
    · rcases rowUpdate_opened hopen with ⟨hopen, _⟩ | ⟨openPrice, now, rfl⟩
      · exact .inl hopen
      · exact .inr (hok t (Db.trade?_eq_some.mpr ⟨ht, rfl⟩))
    · exact .inr (rowUpdate_pending hpending)
  · rintro closings now clear rfl c hc hid
    rw [rowUpdate_closeTrades hok.1 hc hid] at hlive
    rcases hlive with h | h <;> cases h

private theorem bookings_exact (hok : stmt.LotsOk db) {b : Booking} (hb : b ∈ stmt.bookings db) :
    b.Exact := by
  have hexact : ∀ (c : Closing) (lots : ℚ) (commission : Cents), c.Takes db lots commission →
      Booking.Exact { db.closeBooking c with
        heldLots := (db.closeBooking c).heldLots - lots
        heldCommission := (db.closeBooking c).heldCommission - commission } := by
    intro c lots commission htakes
    obtain ⟨row, hrow, hlots, hcommission⟩ := htakes.held
    refine ⟨?_, ?_, fun p hp => ?_⟩
    · simp [Db.closeBooking, hrow, hlots]
    · simp [Db.closeBooking, hrow, hcommission]
    · simpa [Db.closeBooking, hrow, hlots, hcommission] using (htakes.priced p hp).2
  cases stmt with
  | closeTrades closings now clear =>
    obtain ⟨c, hc, rfl⟩ := List.mem_map.mp hb
    simpa using hexact c 0 0 (hok.2 c hc)
  | splitTrade part c lots commission =>
    rw [bookings, List.mem_singleton] at hb
    obtain ⟨hlots, hcommission, hpnl⟩ := hexact c lots commission hok.2.2.2
    rw [hb]
    exact ⟨hlots, hcommission, hpnl⟩
  | _ => cases hb

theorem mem_bookings {id : Nat} (hid : id ∈ (stmt.bookings db).map Booking.tradeId) :
    (∃ closings now clear, stmt = .closeTrades closings now clear ∧ ∃ c ∈ closings, c.trade.id = id) ∨
      ∃ t ∈ stmt.insertedTrades, t.id = id := by
  cases stmt with
  | closeTrades closings now clear =>
    simp only [bookings, List.map_map, List.mem_map] at hid
    obtain ⟨c, hc, rfl⟩ := hid
    exact .inl ⟨closings, now, clear, rfl, c, hc, rfl⟩
  | splitTrade part c lots commission =>
    rw [bookings, List.map_singleton, List.mem_singleton] at hid
    exact .inr ⟨part, List.mem_cons_self, hid.symm⟩
  | _ => cases hid

theorem bookedRows_exec (hexec : stmt.exec db = some db') :
    db'.bookedRows = (stmt.bookings db).map Booking.tradeId ++ db.bookedRows := by
  rw [Db.bookedRows, exec_booked_log hexec, List.map_append, Db.bookedRows]

private theorem exec_trade_isSome (hexec : stmt.exec db = some db') {id : Nat}
    (ht : (db.trade? id).isSome) : (db'.trade? id).isSome := by
  obtain ⟨t, ht⟩ := Option.isSome_iff_exists.mp ht
  exact Option.isSome_iff_exists.mpr ⟨_, exec_trade? hexec ht⟩

private theorem inserted_trade? (hexec : stmt.exec db = some db') {t : Trade}
    (ht : t ∈ stmt.insertedTrades) : db'.trade? t.id = some t := by
  refine Db.trade?_eq_some.mpr ⟨?_, rfl⟩
  rw [exec_trades hexec]
  exact List.mem_append_left _ ht

private theorem heldLots_exec (hexec : stmt.exec db = some db') {id : Nat} {t : Trade}
    (ht : db.trade? id = some t) (hnew : id ∉ (stmt.bookings db).map Booking.tradeId)
    (hsize : (stmt.rowUpdate t).lotSize = t.lotSize) : db'.heldLots id = db.heldLots id := by
  have hmem : id ∈ db'.bookedRows ↔ id ∈ db.bookedRows := by
    rw [bookedRows_exec hexec, List.mem_append, or_iff_right hnew]
  rw [Db.heldLots, Db.heldLots, exec_trade? hexec ht, ht]
  simp [hmem, hsize]

private theorem bookedLots_exec (hexec : stmt.exec db = some db') (id : Nat) :
    db'.bookedLots id
      = (((stmt.bookings db).filter fun b => b.positionId = id).map Booking.lots).sum
        + db.bookedLots id := by
  rw [Db.bookedLots, exec_booked_log hexec, List.filter_append, List.map_append, List.sum_append,
    Db.bookedLots]

private theorem closeTrades_total {closings : List Closing} {now : Nat} {clear : Bool}
    (hok : (closeTrades closings now clear).LotsOk db)
    (hexec : (closeTrades closings now clear).exec db = some db') {id : Nat} {t : Trade}
    (ht : db.trade? id = some t) :
    db'.bookedLots id + db'.heldLots id = db.bookedLots id + db.heldLots id := by
  have hlog : (((closeTrades closings now clear).bookings db).filter fun b => b.positionId = id)
      = (closings.filter fun c => c.trade.id = id).map db.closeBooking := by
    rw [bookings, List.filter_map]
    rfl
  rw [bookedLots_exec hexec, hlog]
  by_cases hnamed : ∃ c ∈ closings, c.trade.id = id
  · obtain ⟨c, hc, rfl⟩ := hnamed
    obtain ⟨_, hunbooked, row, hrow, hlots, _⟩ := hok.2 c hc
    have hbooked : c.trade.id ∈ db'.bookedRows := by
      rw [bookedRows_exec hexec, bookings, List.map_map]
      exact List.mem_append_left _ (List.mem_map.mpr ⟨c, hc, rfl⟩)
    rw [List.filter_key_eq_singleton hok.1 hc, Db.heldLots, if_pos hbooked,
      Db.heldLots_eq hunbooked hrow, hlots]
    simp [Db.closeBooking]
    ring
  · have hne : ∀ c ∈ closings, c.trade.id ≠ id := fun c hc hid => hnamed ⟨c, hc, hid⟩
    have hnone : (closings.filter fun c => c.trade.id = id) = [] :=
      List.filter_eq_nil_iff.mpr fun c hc => by simpa using hne c hc
    have hid : t.id = id := Db.trade?_id ht
    have hheld : db'.heldLots id = db.heldLots id := by
      refine heldLots_exec hexec ht (fun hmem => ?_) ?_
      · simp only [bookings, List.map_map, List.mem_map] at hmem
        obtain ⟨c, hc, hcid⟩ := hmem
        exact hne c hc hcid
      · rw [rowUpdate_closeTrades_of_ne (hid ▸ hne)]
    rw [hnone, hheld]
    simp

private theorem splitTrade_total {part : Trade} {c : Closing} {lots : ℚ} {commission : Cents}
    (hok : (splitTrade part c lots commission).LotsOk db)
    (hexec : (splitTrade part c lots commission).exec db = some db') {id : Nat} {t : Trade}
    (ht : db.trade? id = some t) :
    db'.bookedLots id + db'.heldLots id = db.bookedLots id + db.heldLots id := by
  obtain ⟨_, _, _, _, hunbooked, row, hrow, hlots, _⟩ := hok
  have hpart : part.id ≠ id := by
    rintro rfl
    rw [exec_inserted_fresh hexec List.mem_cons_self] at ht
    cases ht
  rw [bookedLots_exec hexec]
  by_cases hid : c.trade.id = id
  · subst hid
    obtain rfl := Option.some.inj (hrow.symm.trans ht)
    have hnew : c.trade.id ∉ db'.bookedRows := by
      rw [bookedRows_exec hexec]
      simpa [bookings, Db.splitBooking] using ⟨Ne.symm hpart, hunbooked⟩
    have hrow' := exec_trade? hexec hrow
    rw [Db.heldLots_eq hnew hrow', Db.heldLots_eq hunbooked hrow, hlots]
    simp [bookings, Db.splitBooking, Db.closeBooking, rowUpdate, Db.trade?_id hrow, Trade.resized]
    ring
  · have hheld : db'.heldLots id = db.heldLots id := by
      refine heldLots_exec hexec ht (by simpa [bookings, Db.splitBooking] using Ne.symm hpart) ?_
      rw [rowUpdate, if_neg (by rw [Db.trade?_id ht]; exact Ne.symm hid)]
    rw [hheld]
    simp [bookings, Db.splitBooking, Db.closeBooking, hid]

private theorem exec_total (hok : stmt.LotsOk db) (hexec : stmt.exec db = some db') {id : Nat}
    {t : Trade} (ht : db.trade? id = some t) :
    db'.bookedLots id + db'.heldLots id = db.bookedLots id + db.heldLots id := by
  cases stmt with
  | closeTrades closings now clear => exact closeTrades_total hok hexec ht
  | splitTrade part c lots commission => exact splitTrade_total hok hexec ht
  | fillTrade | cancelTrades | deferTrade =>
    rw [bookedLots_exec hexec,
      heldLots_exec hexec ht (by simp [bookings]) (by simp only [rowUpdate]; split <;> rfl)]
    simp [bookings]
  | insertAccount | insertTrade | creditAccount | adjustBalance | setStatus | raiseAnchors =>
    rw [bookedLots_exec hexec, heldLots_exec hexec ht (by simp [bookings]) rfl]
    simp [bookings]

/-! ### A statement keeps the lots -/

private theorem exec_grid (hkept : LotsKept db) (hok : stmt.LotsOk db)
    (hexec : stmt.exec db = some db') :
    ∀ t ∈ db'.trades.rows, 0 < t.lotSize ∧ OnLotGrid t.lotSize := by
  intro t ht
  rw [exec_trades hexec] at ht
  rcases List.mem_append.mp ht with hnew | hold
  · cases stmt with
    | insertTrade trade =>
      rw [insertedTrades, List.mem_singleton] at hnew
      exact hnew ▸ hok
    | splitTrade part c lots commission =>
      rw [insertedTrades, List.mem_singleton] at hnew
      exact hnew ▸ hok.2.1
    | _ => cases hnew
  · obtain ⟨old, hmem, rfl⟩ := List.mem_map.mp hold
    exact rowUpdate_grid hok (hkept.grid old hmem)

private theorem inserted_unbooked (hkept : LotsKept db) (hexec : stmt.exec db = some db') {t : Trade}
    (ht : t ∈ stmt.insertedTrades) : t.id ∉ db.bookedRows := by
  intro hmem
  obtain ⟨b, hb, hid⟩ := List.mem_map.mp hmem
  have hknown := (hkept.booked b hb).1
  rw [hid, exec_inserted_fresh hexec ht] at hknown
  cases hknown

private theorem exec_live (hkept : LotsKept db) (hok : stmt.LotsOk db)
    (hexec : stmt.exec db = some db') :
    ∀ t ∈ db'.trades.rows, t.status = .opened ∨ t.status = .pending → t.id ∉ db'.bookedRows := by
  intro t ht hlive
  rw [bookedRows_exec hexec, List.mem_append, not_or]
  rw [exec_trades hexec] at ht
  rcases List.mem_append.mp ht with hnew | hold
  · refine ⟨fun hmem => ?_, inserted_unbooked hkept hexec hnew⟩
    cases stmt with
    | splitTrade part c lots commission =>
      rw [insertedTrades, List.mem_singleton] at hnew
      rw [hnew, hok.1] at hlive
      rcases hlive with h | h <;> cases h
    | insertTrade => cases hmem
    | _ => cases hnew
  · obtain ⟨old, hmem, rfl⟩ := List.mem_map.mp hold
    obtain ⟨hlive, hne⟩ := rowUpdate_live hok hmem hlive
    rw [rowUpdate_id]
    refine ⟨fun hbooked => ?_, hkept.live old hmem hlive⟩
    rcases mem_bookings hbooked with ⟨closings, now, clear, rfl, c, hc, hid⟩ | ⟨t, ht, hid⟩
    · exact hne closings now clear rfl c hc hid
    · have hnone := exec_inserted_fresh hexec ht
      rw [hid, Db.trade?_eq_some.mpr ⟨hmem, rfl⟩] at hnone
      cases hnone

private theorem exec_bookedKnown (hkept : LotsKept db) (hok : stmt.LotsOk db)
    (hexec : stmt.exec db = some db') :
    ∀ b ∈ db'.booked, (db'.trade? b.tradeId).isSome ∧ (db'.trade? b.positionId).isSome := by
  intro b hb
  rw [exec_booked_log hexec] at hb
  rcases List.mem_append.mp hb with hnew | hold
  · cases stmt with
    | closeTrades closings now clear =>
      obtain ⟨c, hc, rfl⟩ := List.mem_map.mp hnew
      obtain ⟨row, hrow, _⟩ := (hok.2 c hc).held
      have hsome := exec_trade_isSome hexec (Option.isSome_iff_exists.mpr ⟨row, hrow⟩)
      exact ⟨hsome, hsome⟩
    | splitTrade part c lots commission =>
      rw [bookings, List.mem_singleton] at hnew
      obtain ⟨row, hrow, _⟩ := hok.2.2.2.held
      rw [hnew]
      refine ⟨?_, exec_trade_isSome hexec (Option.isSome_iff_exists.mpr ⟨row, hrow⟩)⟩
      exact Option.isSome_iff_exists.mpr ⟨part, inserted_trade? hexec List.mem_cons_self⟩
    | _ => cases hnew
  · obtain ⟨htrade, hposition⟩ := hkept.booked b hold
    exact ⟨exec_trade_isSome hexec htrade, exec_trade_isSome hexec hposition⟩

/-- The lots an inserted position starts with are all still to be booked. -/
private theorem inserted_total (hkept : LotsKept db) {trade : Trade}
    (hexec : (insertTrade trade).exec db = some db') :
    db'.bookedLots trade.id + db'.heldLots trade.id = trade.lotSize := by
  have hunbooked : trade.id ∉ db'.bookedRows := by
    rw [bookedRows_exec hexec]
    exact inserted_unbooked hkept hexec List.mem_cons_self
  have hnone : (db.booked.filter fun b => b.positionId = trade.id) = [] := by
    rw [List.filter_eq_nil_iff]
    intro b hb hid
    have hknown := (hkept.booked b hb).2
    rw [of_decide_eq_true hid, exec_inserted_fresh hexec List.mem_cons_self] at hknown
    cases hknown
  rw [bookedLots_exec hexec, Db.bookedLots, hnone,
    Db.heldLots_eq hunbooked (inserted_trade? hexec List.mem_cons_self)]
  simp [bookings]

theorem exec_lotsKept (hkept : LotsKept db) (hok : stmt.LotsOk db) (hexec : stmt.exec db = some db') :
    LotsKept db' where
  grid := exec_grid hkept hok hexec
  live := exec_live hkept hok hexec
  booked := exec_bookedKnown hkept hok hexec
  exact := by
    intro b hb
    rw [exec_booked_log hexec] at hb
    rcases List.mem_append.mp hb with hnew | hold
    · exact bookings_exact hok hnew
    · exact hkept.exact b hold
  opened := by
    intro o ho
    rw [exec_openedLots hexec] at ho
    rcases List.mem_append.mp ho with hnew | hold
    · cases stmt with
      | insertTrade trade =>
        rw [opens, List.mem_singleton] at hnew
        rw [hnew]
        exact Option.isSome_iff_exists.mpr ⟨trade, inserted_trade? hexec List.mem_cons_self⟩
      | _ => cases hnew
    · exact exec_trade_isSome hexec (hkept.opened o hold)
  total := by
    intro o ho
    rw [exec_openedLots hexec] at ho
    rcases List.mem_append.mp ho with hnew | hold
    · cases stmt with
      | insertTrade trade =>
        rw [opens, List.mem_singleton] at hnew
        rw [hnew]
        exact inserted_total hkept hexec
      | _ => cases hnew
    · obtain ⟨t, ht⟩ := Option.isSome_iff_exists.mp (hkept.opened o hold)
      rw [exec_total hok hexec ht, hkept.total o hold]

end Stmt

namespace LotsKept

theorem initial (models : Table StepModel) : LotsKept (Db.initial models) := by
  constructor <;> simp [Db.initial]

theorem bookedOnce {db : Db} (hkept : LotsKept db) : LotsBookedOnce db := by
  refine ⟨fun o ho => ?_, hkept.exact⟩
  have hheld : 0 ≤ db.heldLots o.positionId := by
    obtain ⟨t, ht⟩ := Option.isSome_iff_exists.mp (hkept.opened o ho)
    rw [Db.heldLots, ht]
    split
    · exact le_rfl
    · exact (hkept.grid t (Db.trade?_eq_some.mp ht).1).1.le
  linarith [hkept.total o ho]

end LotsKept

/-! ### Runs -/

abbrev LotsOkAll (db : Db) (stmts : List Stmt) : Prop :=
  RunOk (fun db stmt => Stmt.exec db stmt) Stmt.LotsOk db stmts

def Action.requestedLots : Action → Option ℚ
  | .closeTradeHandler _ _ closeLots _ _ _ => closeLots
  | _ => none

namespace World

/-- Rows priced from an earlier read still have the size and commission they had, and the lots asked
for are hundredths. -/
structure PricesHeldLots (w : World) (a : Action) : Prop where
  snapshots : ∀ t ∈ w.snapshots a, ∀ row, w.db.trade? t.id = some row →
    row.lotSize = t.lotSize ∧ row.commission = t.commission
  requested : ∀ lots, a.requestedLots = some lots → OnLotGrid lots

instance (w : World) (a : Action) : Decidable (w.PricesHeldLots a) :=
  decidable_of_iff
    ((∀ t ∈ w.snapshots a, (w.db.trade? t.id).all fun row =>
        row.lotSize = t.lotSize ∧ row.commission = t.commission) ∧
      a.requestedLots.all fun lots => OnLotGrid lots)
    ⟨fun h => ⟨by simpa [Option.all_eq_true] using h.1, by simpa [Option.all_eq_true] using h.2⟩,
      fun h => ⟨by simpa [Option.all_eq_true] using h.1, by simpa [Option.all_eq_true] using h.2⟩⟩

private theorem manualClose_onLotGrid {row : Trade} {requested : Option ℚ} {closeLots : ℚ}
    (hmanual : ManualClose row requested closeLots) (hrow : OnLotGrid row.lotSize)
    (hrequested : ∀ lots, requested = some lots → OnLotGrid lots) : OnLotGrid closeLots := by
  rw [hmanual.requested_eq]
  cases requested with
  | none => exact hrow
  | some lots => exact hrequested lots rfl

theorem PricedFrom.takes {w : World} {a : Action} {c : Closing} {row : Trade}
    (hfrom : w.PricedFrom a c) (hok : w.PricesHeldLots a) (hkept : LotsKept w.db)
    (hrow : w.db.trade? c.trade.id = some row) (hopen : row.status = .opened) (hpriced : c.Priced) :
    c.Takes w.db 0 0 := by
  have hunbooked : c.trade.id ∉ w.db.bookedRows := by
    obtain ⟨hmem, hid⟩ := Db.trade?_eq_some.mp hrow
    exact hid ▸ hkept.live row hmem (.inl hopen)
  refine ⟨hpriced, hunbooked, row, hrow, ?_⟩
  rw [add_zero, add_zero]
  cases hfrom with
  | snapshot hsnapshot => exact hok.snapshots _ hsnapshot row hrow
  | locked hself =>
    obtain rfl := Option.some.inj (hrow.symm.trans hself)
    exact ⟨rfl, rfl⟩
  | requested hrow' hmanual hremain htrade =>
    obtain rfl := Option.some.inj (hrow.symm.trans hrow')
    obtain ⟨hpos, hgrid⟩ := hkept.grid row (Db.trade?_eq_some.mp hrow).1
    have hclose := manualClose_onLotGrid hmanual hgrid fun lots h => hok.requested lots h
    rw [hgrid.sub hclose] at hremain
    have hall := le_antisymm hmanual.le (by linarith)
    rw [htrade, hall]
    exact ⟨rfl, (partialCommission_self hpos).symm⟩

theorem Writes.lotsOk {w : World} {a : Action} {stmts : List Stmt} (hwrites : w.Writes a stmts)
    (hok : w.PricesHeldLots a) (hkept : LotsKept w.db) : LotsOkAll w.db stmts := by
  cases hwrites with
  | provision | cancelStale | cancelPending | adjust | lock | restore =>
    exact .of_forall (by simp [Stmt.LotsOk])
  | order _ _ _ hrows =>
    refine .of_forall fun stmt hstmt db => ?_
    obtain ⟨t, ht, rfl⟩ := List.mem_map.mp hstmt
    exact (hrows t ht).2.onLotGrid
  | fill _ hrow hpending hsiblings =>
    refine ⟨fun row hrow' => ?_, fun _ _ => .of_forall fun stmt hstmt db => ?_⟩
    · exact Option.some.inj (hrow.symm.trans hrow') ▸ hpending
    · obtain ⟨cond, reason, rfl, _⟩ := hsiblings stmt hstmt
      exact trivial
  | defer hdefer =>
    refine .of_forall fun stmt hstmt db => ?_
    obtain ⟨id, level, reason, rfl⟩ := hdefer stmt hstmt
    exact trivial
  | close hnodup hclose _ _ hfrom =>
    refine ⟨⟨hnodup, fun c hc => ?_⟩, fun _ _ => .of_forall fun stmt hstmt db => ?_⟩
    · obtain ⟨row, hrow, hopen, hcloses, _⟩ := hclose c hc
      exact (hfrom c hc).takes hok hkept hrow hopen hcloses.priced
    · obtain ⟨credit, _, rfl⟩ := List.mem_map.mp hstmt
      exact trivial
  | @split fx tradeId requested closePrice minLotSize partId row closeLots c hrow hopen _ hmanual hremain
      hpriced htrade =>
    obtain ⟨hmem, hid⟩ := Db.trade?_eq_some.mp hrow
    obtain ⟨hpos, hgrid⟩ := hkept.grid row hmem
    have hclose := manualClose_onLotGrid hmanual hgrid fun lots h => hok.requested lots h
    have hrest := hgrid.sub hclose
    refine ⟨⟨rfl, ?_, ?_, hpriced, ?_, row, ?_, ?_, ?_⟩, fun _ _ => ⟨trivial, fun _ _ => trivial⟩⟩
    · rw [partialCloseRow, hclose.toLots_eq]
      exact ⟨hmanual.pos, hclose⟩
    · rw [hrest] at hremain ⊢
      rw [hrest.toLots_eq]
      exact ⟨hremain, hrest⟩
    · rw [htrade]
      exact hkept.live row hmem (.inl hopen)
    · rw [htrade, hid]
      exact hrow
    · rw [htrade, hrest, hrest.toLots_eq]
      ring
    · rw [htrade]
      ring

def HoldsUnbooked (w : World) : Prop := ∀ s ∈ w.settling, ∀ t ∈ s.trades, t.id ∉ w.db.bookedRows

end World

theorem execAll_unbooked {touch : Nat → Prop} {db db' : Db} {stmts : List Stmt}
    (hsound : SoundAll touch db stmts) (hexec : execAll db stmts = some db') {s : Settling}
    (hvalid : s.Valid db) (huntouched : ¬ touch s.account.id)
    (hunbooked : ∀ t ∈ s.trades, t.id ∉ db.bookedRows) : ∀ t ∈ s.trades, t.id ∉ db'.bookedRows := by
  refine (run_invariant (fun db => s.Valid db ∧ ∀ t ∈ s.trades, t.id ∉ db.bookedRows) ?_
    ⟨hvalid, hunbooked⟩ hsound hexec).2
  rintro db stmt db' ⟨hvalid, hunbooked⟩ hstmt hexec
  refine ⟨hvalid.exec hstmt hexec huntouched, fun t ht hmem => ?_⟩
  rw [Stmt.bookedRows_exec hexec, List.mem_append, or_iff_left (hunbooked t ht)] at hmem
  obtain ⟨row, hrow, hheld⟩ := hvalid.held t ht
  rcases Stmt.mem_bookings hmem with ⟨closings, now, clear, rfl, c, hc, hid⟩ | ⟨t', ht', hid⟩
  · have htouch := hstmt c hc row (hid ▸ hrow)
    rw [hheld.later.accountId, (hvalid.opened t ht).2] at htouch
    exact huntouched htouch
  · have hnone := Stmt.exec_inserted_fresh hexec ht'
    rw [hid, hrow] at hnone
    cases hnone

theorem Settling.statements_lotsOk {s : Settling} {db : Db} (hvalid : s.Valid db)
    (hunbooked : ∀ t ∈ s.trades, t.id ∉ db.bookedRows) {fx : FxSource} {stmts : List Stmt}
    (hstmts : s.statements fx = some stmts) : LotsOkAll db stmts := by
  refine statements_runOk hstmts
    (fun closings hclosings db' htrades hbooked => ⟨?_, fun c hc => ?_⟩)
    (fun _ => trivial) (fun _ _ => trivial) (fun _ _ => trivial) (fun _ _ => trivial)
  · exact hvalid.closings_nodup hclosings
  · have hmem := hvalid.mem_of_closing hclosings hc
    obtain ⟨row, hrow, hheld⟩ := hvalid.held c.trade hmem
    refine ⟨(closings_eq_some hclosings fun h => (hvalid.passes h).1).2.1 c hc, ?_, row, ?_, ?_, ?_⟩
    · rw [Db.bookedRows, hbooked]
      exact hunbooked _ hmem
    · rw [Db.trade?, htrades]
      exact hrow
    · rw [hheld.lotSize, add_zero]
    · rw [hheld.commission, add_zero]

namespace World

theorem step_lotsKept {w w' : World} {a : Action} (hvalid : w.Valid)
    (hinv : LotsKept w.db ∧ w.HoldsUnbooked) (hok : w.PricesHeldLots a) (hstep : w.step a = some w') :
    LotsKept w'.db ∧ w'.HoldsUnbooked := by
  obtain ⟨hkept, hholds⟩ := hinv
  have hrun : ∀ {stmts db}, LotsOkAll w.db stmts → execAll w.db stmts = some db → LotsKept db :=
    fun hlots hexec =>
      run_invariant LotsKept (fun _ _ _ h hstmt hexec => Stmt.exec_lotsKept h hstmt hexec) hkept hlots
        hexec
  cases step_steps hvalid hstep with
  | transact _ hwrites hexec =>
    refine ⟨hrun (hwrites.lotsOk hok hkept) hexec, fun s hs => ?_⟩
    exact execAll_unbooked hwrites.sound hexec (hvalid.settling s hs) (not_accountFree hs) (hholds s hs)
  | commit hs hstmts hexec =>
    have hread := hvalid.settling _ hs
    refine ⟨hrun (Settling.statements_lotsOk hread (hholds _ hs) hstmts) hexec, fun s hs' => ?_⟩
    obtain ⟨hmem, hne⟩ := mem_release.mp hs'
    exact execAll_unbooked (Settling.statements_sound hread hstmts) hexec (hvalid.settling s hmem) hne
      (hholds s hmem)
  | begin _ _ hbegin =>
    refine ⟨hkept, fun s hs => ?_⟩
    rcases List.mem_cons.mp hs with rfl | hs
    · intro t ht
      obtain ⟨hmem, _, hopen⟩ := beginSettle_reads hbegin ht
      exact hkept.live t hmem (.inl hopen)
    · exact hholds s hs
  | abort => exact ⟨hkept, fun s hs => hholds s (mem_release.mp hs).1⟩
  | tick => exact ⟨hkept, hholds⟩

/-- In every run whose closes find the rows they priced at the size they read, and whose requested
lots are hundredths, no lot is booked twice. -/
theorem reached_lotsBookedOnce {models : Table StepModel} {w : World}
    (hreach : Reached models PricesHeldLots w) : LotsBookedOnce w.db :=
  (Reach.invariant_relative Reached.valid
    (by rintro _ rfl; exact ⟨.initial models, by simp [HoldsUnbooked, World.initial]⟩)
    (fun _ _ _ hvalid hinv hok hstep => step_lotsKept hvalid hinv hok hstep) hreach).1.bookedOnce

/-- A position of one lot with a take profit at 1.12. -/
def targetOpened : List Action :=
  [.provision sampleTerms 1,
    .openTrade { sampleOrder with takeProfit := some (28 / 25) } 1 (11 / 10)]

/-- The trader closes 0.40 lots of it. -/
def targetReduced : List Action :=
  targetOpened ++ [.closeTradeHandler noConversion 1 (some (2 / 5)) (111 / 100) (1 / 100) 2]

theorem reached_lotsBookedOnce_targetReduced :
    ∃ w, run step (World.initial Table.empty)
        (targetReduced ++ [.closeTriggeredTrades noConversion [(0, 1, 28 / 25)] [] 0]) = some w ∧
      LotsBookedOnce w.db ∧ w.db.bookedLots 1 = 1 := by
  obtain ⟨w, hw, hcheck⟩ := exists_of_run_any step (World.initial Table.empty)
    (targetReduced ++ [.closeTriggeredTrades noConversion [(0, 1, 28 / 25)] [] 0])
    (fun w => w.db.bookedLots 1 = 1) (by decide +kernel)
  have hreach : Reached Table.empty PricesHeldLots w := .of_run (.init rfl) (by decide +kernel) hw
  exact ⟨w, hw, reached_lotsBookedOnce hreach, of_decide_eq_true hcheck⟩

/-- The triggered close priced from the index entry books the full lot again after 0.40 of it was
closed; and closing 0.015 lots books 0.015 while the row gives up 0.01, so that closing the rest books
1.005 lots in all. -/
theorem lots_booked_twice :
    (∃ w, run step (World.initial Table.empty)
        (targetReduced ++ [.closeTriggeredTrades noConversion [(1, 1, 28 / 25)] [] 0]) = some w ∧
      w.db.bookedLots 1 = 7 / 5 ∧ ¬ LotsBookedOnce w.db) ∧
    ∃ w, run step (World.initial Table.empty)
        (targetOpened ++ [.closeTradeHandler noConversion 1 (some (3 / 200)) (111 / 100) (1 / 100) 2,
          .closeTradeHandler noConversion 1 none (111 / 100) (1 / 100) 3]) = some w ∧
      w.db.bookedLots 1 = 201 / 200 ∧ ¬ LotsBookedOnce w.db := by
  obtain ⟨w, hw, hsnapshot⟩ := exists_of_run_any step (World.initial Table.empty)
    (targetReduced ++ [.closeTriggeredTrades noConversion [(1, 1, 28 / 25)] [] 0])
    (fun w => w.db.bookedLots 1 = 7 / 5 ∧ ¬ LotsBookedOnce w.db) (by decide +kernel)
  obtain ⟨w', hw', hgrid⟩ := exists_of_run_any step (World.initial Table.empty)
    (targetOpened ++ [.closeTradeHandler noConversion 1 (some (3 / 200)) (111 / 100) (1 / 100) 2,
      .closeTradeHandler noConversion 1 none (111 / 100) (1 / 100) 3])
    (fun w => w.db.bookedLots 1 = 201 / 200 ∧ ¬ LotsBookedOnce w.db) (by decide +kernel)
  exact ⟨⟨w, hw, of_decide_eq_true hsnapshot⟩, w', hw', of_decide_eq_true hgrid⟩

end World

end PropFirm
