import DemandTransport.Proofs.Clock
import DemandTransport.Proofs.Dispatch.Cycle
import DemandTransport.Proofs.Execution.Course
import DemandTransport.Proofs.Network.Reach

/-!
# Plugs are not overbooked

At no instant are more plugs of a charger booked than it has, since a session is planned only if a
plug is free for as long as it may last. A booking lasts until the first execution at or after the
end of its session, so as long as that execution is to come, a vehicle that is plugged in is one of
those that have booked.
-/

namespace DemandTransport

variable {R : Type}

/-! ## Booked plugs -/

/-- The plugs that the schedules of some vehicles book. -/
def booked (grid : StepGrid) (vehicles : List (Vehicle R)) : List Booking :=
  vehicles.flatMap fun v => v.schedule.bookings grid

/-- Whether a booking holds a plug of a charger at an instant. -/
def Booking.covers (charger : ChargerId) (t : Time) (b : Booking) : Bool :=
  b.charger == charger && b.first ≤ t && t ≤ b.last

/-- A free plug is free at every instant of the booking. -/
theorem ChargingPlanner.countP_lt_of_hasRoom {bookings : List Booking} {new : Booking}
    {charger : ChargerId} {plugs : Nat} {t : Time} (h : hasRoom bookings plugs new = true)
    (hnew : new.covers charger t = true) : bookings.countP (Booking.covers charger t) < plugs := by
  have hoverlaps : bookings.countP (Booking.covers charger t) ≤
      bookings.countP fun b => b.overlaps new := by
    refine List.countP_mono_left fun b _ hb => ?_
    simp only [Booking.covers, Booking.overlaps, Bool.and_eq_true, beq_iff_eq,
      decide_eq_true_iff] at hb hnew ⊢
    obtain ⟨⟨hcharger, hfirst⟩, hlast⟩ := hb
    obtain ⟨⟨hcharger', hfirst'⟩, hlast'⟩ := hnew
    exact ⟨⟨hcharger.trans hcharger'.symm, Nat.le_trans hfirst hlast'⟩, Nat.le_trans hfirst' hlast⟩
  simp only [hasRoom, ← List.countP_eq_length_filter, decide_eq_true_iff] at h
  exact Nat.lt_of_le_of_lt hoverlaps h

/-- A session is booked only beside bookings that leave a plug free, so no more plugs are booked
than before or than there are. -/
theorem ChargingPlanner.countP_session_le [Scalar R] {planner : ChargingPlanner R}
    {network : Network R} {router : Router R} {now : Time} {pool : ChargerPool R}
    {bookings old : List Booking} {v : Vehicle R} {session : Session R} (hpool : pool.Distinct)
    (hold : old.Subperm bookings)
    (h : planner.sessionFor? network router now pool bookings v = some session)
    (charger : ChargerId) (t : Time) :
    ([planner.bookingOf session] ++ old).countP (Booking.covers charger t) ≤
        old.countP (Booking.covers charger t) ∨
      ([planner.bookingOf session] ++ old).countP (Booking.covers charger t) ≤
        pool.plugs charger := by
  obtain ⟨slot, found, route, f, g, hmade⟩ := sessionFor?_eq_some h
  have hbooking : planner.bookingOf session =
      .ofSession planner.grid found.id route.arrival session.assignment.finish := by
    rw [bookingOf, hmade.id, hmade.start]
  rw [hbooking, List.singleton_append, List.countP_cons]
  split
  next hcovers =>
    have hc : found.id = charger := by
      simp only [Booking.covers, Booking.ofSession, Bool.and_eq_true, beq_iff_eq] at hcovers
      exact hcovers.1.1
    have hplugs : pool.plugs charger = found.plugs := by
      simp [ChargerPool.plugs, ← hc, ChargerPool.find?_of_mem hpool hmade.known]
    have hfree := countP_lt_of_hasRoom hmade.room hcovers
    have hcount := hold.countP_le (Booking.covers charger t)
    exact .inr (by omega)
  · exact .inl (Nat.le_refl _)

/-! ## Room for all sessions -/

/-- Whether a charging task is being executed at a charger. -/
def Schedule.Charges (s : Schedule R) (charger : ChargerId) : Prop :=
  ∃ since, (.charge charger, since) ∈ s.underway

/-- What holds of vehicles and chargers at an instant, with the next execution at a later one or at
the same. -/
structure Accommodated (grid : StepGrid) (now next : Time) (pool : ChargerPool R)
    (vehicles : List (Vehicle R)) : Prop where
  roster : Roster vehicles pool
  distinct : pool.Distinct
  /-- Chargers have as many plugs as are booked. -/
  room : ∀ charger t, (booked grid vehicles).countP (Booking.covers charger t) ≤ pool.plugs charger
  /-- No booking is over before the next execution. -/
  current : ∀ b ∈ booked grid vehicles, next ≤ b.last
  /-- What is being executed was to begin by now. -/
  begun : ∀ v ∈ vehicles, ∀ kind since, (kind, since) ∈ v.schedule.underway → since ≤ now
  /-- No vehicle holds two plugs. -/
  alone : ∀ charger, (pool.plugged charger).Nodup
  /-- Plugs are held by the vehicles that charge. -/
  held : ∀ charger id,
    id ∈ pool.plugged charger ↔ ∃ v ∈ vehicles, v.id = id ∧ v.schedule.Charges charger

namespace Accommodated

variable {grid : StepGrid} {now next : Time} {pool : ChargerPool R} {vehicles : List (Vehicle R)}
  {a b : List (Vehicle R)} {v v' : Vehicle R}

/-- Planning for one vehicle keeps the order if there is room for its bookings and if they are not
over before the next execution. -/
theorem replanned {added : List Booking} (h : Accommodated grid now next pool (a ++ v :: b))
    (hv : v.Replanned grid added v') (hknown : ∀ b ∈ added, (pool.find? b.charger).isSome)
    (hroom : ∀ charger t, (added ++ booked grid (a ++ v :: b)).countP (Booking.covers charger t) ≤
      pool.plugs charger)
    (hcurrent : ∀ b ∈ added, next ≤ b.last) :
    Accommodated grid now next pool (a ++ v' :: b) where
  roster := h.roster.replanned hv hknown
  distinct := h.distinct
  room charger t := (hv.fleet_books.countP_le _).trans (hroom charger t)
  current booking hbooking := by
    rcases List.mem_append.mp (hv.fleet_books.subset hbooking) with hnew | hold
    · exact hcurrent booking hnew
    · exact h.current booking hold
  begun := by
    refine forall_mem_replace h.begun fun kind since hsince => ?_
    rw [hv.schedule.executes] at hsince
    exact h.begun v (by simp) kind since hsince
  alone := h.alone
  held charger id := by
    have hid : v'.id = v.id := by rw [hv.same]
    have hcharges : v'.schedule.Charges charger ↔ v.schedule.Charges charger := by
      rw [Schedule.Charges, hv.schedule.executes, Schedule.Charges]
    rw [h.held]
    simp only [List.mem_append, List.mem_cons, or_and_right, exists_or, exists_eq_left, hid,
      hcharges]

/-- Planning without new bookings keeps the order. -/
theorem resilient : Resilient grid (Accommodated grid now next pool) where
  numbered h := h.roster.numbered
  valid h := h.roster.valid
  replanned h hv := h.replanned hv (by simp) h.room (by simp)

/-- The next execution may be an earlier one. -/
theorem sooner {next' : Time} (h : Accommodated grid now next pool vehicles) (hle : next' ≤ next) :
    Accommodated grid now next' pool vehicles :=
  { h with current := fun b hb => Nat.le_trans hle (h.current b hb) }

/-- When everything that should be over is, the next execution is the one that follows. -/
theorem settled (h : Accommodated grid now now pool vehicles)
    (hsettled : ∀ v ∈ vehicles, v.schedule.Settled now)
    (hnext : ∀ t, now < t → next ≤ grid.snap t) : Accommodated grid now next pool vehicles := by
  refine { h with current := fun booking hbooking => ?_ }
  obtain ⟨v, hv, hbooks⟩ := List.mem_flatMap.mp hbooking
  obtain ⟨task, htask, hopen, charger, -, rfl⟩ := Schedule.mem_bookings.mp hbooks
  exact hnext _ (hsettled v hv task htask hopen)

/-- Time may pass until the next execution. -/
theorem later (h : Accommodated grid now next pool vehicles) (hle : now ≤ next) :
    Accommodated grid next next pool vehicles :=
  { h with begun := fun v hv kind since hsince =>
      Nat.le_trans (h.begun v hv kind since hsince) hle }

variable [Scalar R]

/-- Planned sessions keep the order, as far as the grid tells when an instant to come is over. -/
theorem hospitable {planner : ChargingPlanner R} {network : Network R} {router : Router R}
    (hrouter : router.Sound) (hnext : ∀ t, now < t → next ≤ planner.grid.snap t) :
    ChargingPlanner.Hospitable planner network router now pool
      (Accommodated planner.grid now next pool) where
  valid h v hv := (h.roster.valid v hv).toValid
  session {a v b v' bookings session} h hbookings hsession hv := by
    obtain ⟨slot, charger, route, f, g, hmade⟩ := ChargingPlanner.sessionFor?_eq_some hsession
    have hbooking : planner.bookingOf session = .ofSession planner.grid charger.id route.arrival
        session.assignment.finish := by
      rw [ChargingPlanner.bookingOf, hmade.id, hmade.start]
    have hfound := ChargerPool.find?_of_mem h.distinct hmade.known
    refine h.replanned hv (fun b hb => ?_) (fun c t => ?_) fun b hb => ?_
    · rw [List.mem_singleton.mp hb, hbooking, Booking.ofSession, hfound]
      rfl
    · exact (ChargingPlanner.countP_session_le h.distinct hbookings hsession c t).elim
        (fun hsame => hsame.trans (h.room c t)) id
    · rw [List.mem_singleton.mp hb, hbooking]
      refine hnext _ ?_
      obtain ⟨before, stay, hlies⟩ := Vehicle.openSlot?_eq_some hmade.opens
      have hfuture := hlies.future
      have hlasts := hmade.lasts
      have harrival := (routeLeg?_joins hrouter hmade.drives).1.arrival
      simp only [Time.le_iff, Time.lt_iff] at *
      omega

end Accommodated

end DemandTransport
