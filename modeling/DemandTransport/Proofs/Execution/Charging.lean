import DemandTransport.Proofs.Dispatch.Capacity

/-!
# Every session finds a plug

When a charging task begins, the vehicles that hold plugs of the charger and the vehicle of the task
have all booked the present instant. Since no more plugs are booked than there are, one is free.
-/

namespace DemandTransport

variable {R : Type} {grid : StepGrid} {now : Time} {a b : List (Vehicle R)} {v v' : Vehicle R}
  {pool pool' : ChargerPool R} {event : TaskEvent R}

/-- Whether an event tells of a charging task without a plug. -/
def TaskEvent.unplugged (event : TaskEvent R) : Bool :=
  match event.activity with
  | .charge _ false => true
  | _ => false

theorem TaskEvent.activity_ne (h : event.unplugged = false) (charger : ChargerId) :
    event.activity ≠ .charge charger false := by
  intro hactivity
  simp [unplugged, hactivity] at h

/-! ## What is being executed -/

namespace Schedule

theorem underway_of_started {task : Task R} (h : task.status = .started) :
    underway ⟨[task]⟩ = [(task.kind, task.start)] := by
  simp [underway, Task.underway?, h]

/-- Of a schedule with a first task that is not over, this task at most is being executed. -/
theorem Valid.underway_eq {before after : List (Task R)} {task : Task R}
    (h : Valid ⟨before ++ task :: after⟩) (hdone : ∀ a ∈ before, a.status = .performed)
    (hopen : task.status ≠ .performed) :
    underway ⟨before ++ task :: after⟩ = underway ⟨[task]⟩ := by
  have hbefore : underway ⟨before⟩ = [] := underway_eq_nil fun a ha => by simp [hdone a ha]
  have hafter : underway ⟨after⟩ = [] :=
    underway_eq_nil fun b hb => by simp [h.planned_after hopen b hb]
  rw [underway_append, underway_cons, hbefore, hafter, List.nil_append, List.append_nil]

theorem charges_of_underway {s : Schedule R} {kind : TaskKind R} {since : Time}
    (h : s.underway = [(kind, since)]) (charger : ChargerId) :
    s.Charges charger ↔ kind = .charge charger := by
  rw [Charges, h]
  constructor
  · rintro ⟨other, hmem⟩
    exact (Prod.mk.inj (List.mem_singleton.mp hmem)).1.symm
  · rintro rfl
    exact ⟨since, List.mem_singleton_self _⟩

theorem not_charges_of_underway {s : Schedule R} (h : s.underway = []) (charger : ChargerId) :
    ¬s.Charges charger := by
  rintro ⟨since, hmem⟩
  simp [h] at hmem

/-- What is being executed at a charger has been booked there. -/
theorem Charges.exists_booking {s : Schedule R} {charger : ChargerId} (h : s.Charges charger)
    (grid : StepGrid) :
    ∃ since finish, (.charge charger, since) ∈ s.underway ∧
      Booking.ofSession grid charger since finish ∈ s.bookings grid := by
  obtain ⟨since, hsince⟩ := h
  obtain ⟨task, htask, hunderway⟩ := List.mem_filterMap.mp hsince
  unfold Task.underway? at hunderway
  split at hunderway
  next hstarted =>
    obtain ⟨hkind, rfl⟩ := Prod.mk.inj (Option.some.inj hunderway)
    exact ⟨task.start, task.finish, hsince,
      Schedule.mem_bookings.mpr ⟨task, htask, by simp [hstarted], charger, hkind, rfl⟩⟩
  next => cases hunderway

end Schedule

/-- A beat starts a planned task in a schedule in which nothing is being executed, or ends the only
task that is. -/
theorem Beat.underway [Scalar R] (h : Beat now v pool event v' pool') (hv : v.schedule.Valid) :
    ∃ task ∈ v.schedule.tasks, Plugging pool v.id task.kind event.phase event.activity pool' ∧
      (event.phase = .started ∧ task.status = .planned ∧ task.start ≤ now ∧
          v.schedule.underway = [] ∧ v'.schedule.underway = [(task.kind, task.start)] ∨
        event.phase = .ended ∧ v.schedule.underway = [(task.kind, task.start)] ∧
          v'.schedule.underway = []) := by
  obtain ⟨before, after, task, task', htasks, hdone, hbecomes, hdue, hvehicle, -, hplugging⟩ := h
  rw [Schedule.eq_of_tasks htasks] at hv ⊢
  have hopen := hbecomes.not_over
  have hafter : Schedule.underway ⟨after⟩ = [] :=
    Schedule.underway_eq_nil fun b hb => by simp [hv.planned_after hopen b hb]
  have hbefore : Schedule.underway ⟨before⟩ = [] :=
    Schedule.underway_eq_nil fun a ha => by simp [hdone a ha]
  have hlast : v'.schedule.underway = Schedule.underway ⟨[task']⟩ := by
    rw [Schedule.eq_of_tasks hvehicle.tasks, Schedule.underway_append, Schedule.underway_cons,
      hbefore, hafter, List.nil_append, List.append_nil]
  refine ⟨task, by simp, hplugging, ?_⟩
  rw [hv.underway_eq hdone hopen, hlast]
  cases hphase : event.phase with
  | started =>
    rw [hphase] at hbecomes hdue
    have hplanned := hbecomes.was_planned
    refine .inl ⟨rfl, hplanned, hdue, Schedule.underway_eq_nil (by simp [hplanned]), ?_⟩
    rw [Schedule.underway_of_started hbecomes.status, hbecomes.kind, hbecomes.start]
  | ended =>
    rw [hphase] at hbecomes
    refine .inr ⟨rfl, Schedule.underway_of_started hbecomes.was_started,
      Schedule.underway_eq_nil ?_⟩
    simp [hbecomes.status, TaskPhase.status]

/-- A beat books nothing. -/
theorem Beat.bookings [Scalar R] (h : Beat now v pool event v' pool') :
    (v'.schedule.bookings grid).Sublist (v.schedule.bookings grid) := by
  obtain ⟨before, after, task, task', htasks, -, hbecomes, -, hvehicle, -, -⟩ := h
  rw [Schedule.eq_of_tasks htasks, Schedule.eq_of_tasks hvehicle.tasks, Schedule.bookings_append,
    Schedule.bookings_append, Schedule.bookings_cons, Schedule.bookings_cons task]
  refine (List.Sublist.refl _).append (List.Sublist.append ?_ (.refl _))
  rw [Schedule.bookings_of_open hbecomes.not_over]
  by_cases hdone : task'.status = .performed
  · simp [Schedule.bookings, Booking.ofOpen?, hdone]
  · rw [Schedule.bookings_of_open hdone]
    simp [Booking.ofTask?, hbecomes.kind, hbecomes.start, hbecomes.finish]

/-! ## Plugs -/

namespace Accommodated

variable {next : Time}

/-- A vehicle holds a plug of the charger at which it charges. -/
theorem plugged_iff (h : Accommodated grid now next pool (a ++ v :: b)) (charger : ChargerId) :
    v.id ∈ pool.plugged charger ↔ v.schedule.Charges charger := by
  rw [h.held]
  constructor
  · rintro ⟨w, hw, hid, hcharges⟩
    rwa [← List.inj_on_of_nodup_map h.roster.numbered.nodup hw (by simp) hid]
  · exact fun hcharges => ⟨v, by simp, rfl, hcharges⟩

/-- Which plugs are held when one vehicle has taken or given back one. -/
theorem held_iff (h : Accommodated grid now next pool (a ++ v :: b)) (hid : v'.id = v.id)
    (charger : ChargerId) (id : VehicleId) :
    (∃ w ∈ a ++ v' :: b, w.id = id ∧ w.schedule.Charges charger) ↔
      if id = v.id then v'.schedule.Charges charger else id ∈ pool.plugged charger := by
  split
  next heq =>
    constructor
    · rintro ⟨w, hw, hwid, hcharges⟩
      have hnodup := (h.roster.numbered.replace hid).nodup
      rwa [← List.inj_on_of_nodup_map hnodup hw (by simp) (hwid.trans (heq.trans hid.symm))]
    · exact fun hcharges => ⟨v', by simp, hid.trans heq.symm, hcharges⟩
  next hne =>
    have hsub (u : Vehicle R) : a ++ b ⊆ a ++ u :: b :=
      ((List.Sublist.refl a).append (List.sublist_cons_self u b)).subset
    rw [h.held]
    constructor
    · rintro ⟨w, hw, hwid, hcharges⟩
      have hother : w ≠ v' := fun heq => hne (hwid ▸ heq ▸ hid)
      exact ⟨w, hsub v (by simpa [hother] using hw), hwid, hcharges⟩
    · rintro ⟨w, hw, hwid, hcharges⟩
      have hother : w ≠ v := fun heq => hne (hwid ▸ heq ▸ rfl)
      exact ⟨w, hsub v' (by simpa [hother] using hw), hwid, hcharges⟩

/-- A vehicle that is to charge finds a plug. -/
theorem exists_plug (h : Accommodated grid now now pool (a ++ v :: b))
    (hsnap : ∀ t ≤ now, grid.snap t ≤ now) {task : Task R} {charger : ChargerId}
    (htask : task ∈ v.schedule.tasks) (hplanned : task.status = .planned)
    (hkind : task.kind = .charge charger) (hdue : task.start ≤ now) :
    ∃ pool', pool.occupy charger v.id = .ok pool' := by
  have hknown := h.roster.supplied v (by simp) task htask (by simp [hplanned]) charger hkind
  refine (ChargerPool.occupy_cases hknown v.id).resolve_right ?_
  rintro ⟨plugs, hfull⟩
  obtain ⟨hout, hroom⟩ := ChargerPool.occupy_full hfull
  have hcovers {w : Vehicle R} {since finish : Time} (hw : w ∈ a ++ v :: b) (hsince : since ≤ now)
      (hbooking : Booking.ofSession grid charger since finish ∈ w.schedule.bookings grid) :
      (Booking.ofSession grid charger since finish).covers charger now = true := by
    have hlast := h.current _ (List.mem_flatMap.mpr ⟨w, hw, hbooking⟩)
    simp only [Booking.covers, Booking.ofSession, beq_self_eq_true, Bool.true_and,
      Bool.and_eq_true]
    exact ⟨decide_eq_true (hsnap since hsince), decide_eq_true hlast⟩
  have hbooked : (v.id :: pool.plugged charger).length ≤
      (booked grid (a ++ v :: b)).countP (Booking.covers charger now) := by
    refine length_le_countP (List.nodup_cons.mpr ⟨hout, h.alone charger⟩) fun id hid => ?_
    rcases List.mem_cons.mp hid with rfl | hid
    · have hbooking : Booking.ofSession grid charger task.start task.finish ∈
          v.schedule.bookings grid :=
        Schedule.mem_bookings.mpr ⟨task, htask, by simp [hplanned], charger, hkind, rfl⟩
      exact ⟨v, by simp, rfl, _, hbooking, hcovers (by simp) hdue hbooking⟩
    · obtain ⟨w, hw, hwid, hcharges⟩ := (h.held charger id).mp hid
      obtain ⟨since, finish, hsince, hbooking⟩ := hcharges.exists_booking grid
      exact ⟨w, hw, hwid, _, hbooking, hcovers hw (h.begun w hw _ _ hsince) hbooking⟩
  have hplugs := h.room charger now
  rw [List.length_cons] at hbooked
  omega

/-- A beat keeps everything but the plugs in order. -/
theorem of_beat [Scalar R] (h : Accommodated grid now now pool (a ++ v :: b))
    (hbeat : Beat now v pool event v' pool')
    (hbegun : ∀ kind since, (kind, since) ∈ v'.schedule.underway → since ≤ now)
    (halone : ∀ charger, (pool'.plugged charger).Nodup)
    (hheld : ∀ charger id, id ∈ pool'.plugged charger ↔
      if id = v.id then v'.schedule.Charges charger else id ∈ pool.plugged charger) :
    Accommodated grid now now pool' (a ++ v' :: b) := by
  have hbooked : (booked grid (a ++ v' :: b)).Sublist (booked grid (a ++ v :: b)) := by
    simp only [booked, List.flatMap_append, List.flatMap_cons]
    exact (List.Sublist.refl _).append (hbeat.bookings.append (.refl _))
  have hroster := h.roster.beat hbeat
  obtain ⟨_, _, _, _, -, -, -, -, hvehicle, -, hplugging⟩ := hbeat
  refine ⟨hroster, hplugging.keeps.distinct h.distinct, fun charger t => ?_,
    fun booking hbooking => ?_, forall_mem_replace h.begun hbegun, halone, fun charger id => ?_⟩
  · rw [hplugging.keeps.plugs]
    exact hbooked.countP_le.trans (h.room charger t)
  · exact h.current booking (hbooked.subset hbooking)
  · rw [h.held_iff hvehicle.id, hheld]

/-- A vehicle that begins to charge takes a plug. -/
theorem of_taken [Scalar R] {charger : ChargerId} {since : Time}
    (h : Accommodated grid now now pool (a ++ v :: b)) (hbeat : Beat now v pool event v' pool')
    (hoccupy : pool.occupy charger v.id = .ok pool') (hold : v.schedule.underway = [])
    (hnew : v'.schedule.underway = [(.charge charger, since)]) (hsince : since ≤ now) :
    Accommodated grid now now pool' (a ++ v' :: b) := by
  obtain ⟨-, hplugs⟩ := ChargerPool.occupy_ok hoccupy
  have hout : v.id ∉ pool.plugged charger := fun hin =>
    Schedule.not_charges_of_underway hold charger ((h.plugged_iff charger).mp hin)
  refine h.of_beat hbeat (fun kind t ht => ?_) (fun c => ?_) fun c id => ?_
  · rw [hnew] at ht
    rwa [(Prod.mk.inj (List.mem_singleton.mp ht)).2]
  · rw [hplugs]
    split
    · refine List.nodup_append.mpr ⟨h.alone charger, List.nodup_singleton _, ?_⟩
      rintro x hx y hy rfl
      exact hout (List.mem_singleton.mp hy ▸ hx)
    · exact h.alone c
  · rw [hplugs, Schedule.charges_of_underway hnew, TaskKind.charge.injEq]
    by_cases hc : c = charger
    · rw [if_pos ⟨hc, hout⟩, List.mem_append, List.mem_singleton]
      split <;> simp_all
    · rw [if_neg fun hboth => hc hboth.1]
      split
      next hid =>
        rw [hid, h.plugged_iff]
        simp [Schedule.not_charges_of_underway hold c, Ne.symm hc]
      next => rfl

/-- A vehicle that has charged gives its plug back. -/
theorem of_given [Scalar R] {charger : ChargerId} {since : Time} {held : Bool}
    (h : Accommodated grid now now pool (a ++ v :: b)) (hbeat : Beat now v pool event v' pool')
    (hrelease : pool.release charger v.id = .ok (held, pool'))
    (hold : v.schedule.underway = [(.charge charger, since)]) (hnew : v'.schedule.underway = []) :
    held = true ∧ Accommodated grid now now pool' (a ++ v' :: b) := by
  obtain ⟨-, hheld, hplugs⟩ := ChargerPool.release_ok hrelease
  have hin : v.id ∈ pool.plugged charger :=
    (h.plugged_iff charger).mpr ((Schedule.charges_of_underway hold charger).mpr rfl)
  rw [decide_eq_true hin] at hheld
  refine ⟨hheld, h.of_beat hbeat (by simp [hnew]) (fun c => ?_) fun c id => ?_⟩
  · rw [hplugs]
    split
    · exact (h.alone charger).erase _
    · exact h.alone c
  · rw [hplugs]
    by_cases hc : c = charger
    · rw [if_pos hc, (h.alone charger).mem_erase_iff]
      split
      next hid => simp [hid, Schedule.not_charges_of_underway hnew c]
      next hid => simp [hid, hc]
    · rw [if_neg hc]
      split
      next hid =>
        rw [hid, h.plugged_iff, Schedule.charges_of_underway hold, TaskKind.charge.injEq]
        simp [Schedule.not_charges_of_underway hnew c, Ne.symm hc]
      next => rfl

/-- A beat keeps the plugs in order and tells of no vehicle that is to charge without one. -/
theorem beat [Scalar R] (h : Accommodated grid now now pool (a ++ v :: b))
    (hsnap : ∀ t ≤ now, grid.snap t ≤ now) (hbeat : Beat now v pool event v' pool') :
    event.unplugged = false ∧ Accommodated grid now now pool' (a ++ v' :: b) := by
  obtain ⟨task, htask, hplugging, hphase⟩ := hbeat.underway h.roster.valid_at.toValid
  generalize hkind : task.kind = kind at hplugging hphase
  generalize hp : event.phase = phase at hplugging hphase
  generalize hactivity : event.activity = activity at hplugging
  cases hplugging with
  | taken hoccupy =>
    obtain ⟨-, -, hdue, hold, hnew⟩ := hphase.resolve_right (by simp)
    exact ⟨by simp [TaskEvent.unplugged, hactivity], h.of_taken hbeat hoccupy hold hnew hdue⟩
  | refused hfull =>
    obtain ⟨-, hplanned, hdue, -⟩ := hphase.resolve_right (by simp)
    obtain ⟨pool', hok⟩ := h.exists_plug hsnap htask hplanned hkind hdue
    rw [hok] at hfull
    cases hfull
  | given hrelease =>
    obtain ⟨-, hold, hnew⟩ := hphase.resolve_left (by simp)
    obtain ⟨rfl, hnext⟩ := h.of_given hbeat hrelease hold hnew
    exact ⟨by simp [TaskEvent.unplugged, hactivity], hnext⟩
  | none hother =>
    have hactive (c : ChargerId) {s : Schedule R} (hs : s.underway = [] ∨
        s.underway = [(kind, task.start)]) : ¬s.Charges c := by
      rcases hs with hs | hs
      · exact Schedule.not_charges_of_underway hs c
      · exact fun hcharges => hother c ((Schedule.charges_of_underway hs c).mp hcharges)
    have hold := fun c => @hactive c v.schedule
      (hphase.elim (fun hs => .inl hs.2.2.2.1) fun hs => .inr hs.2.1)
    have hnew := fun c => @hactive c v'.schedule
      (hphase.elim (fun hs => .inr hs.2.2.2.2) fun hs => .inl hs.2.2)
    refine ⟨?_, h.of_beat hbeat (fun _ since hsince => ?_) h.alone fun c id => ?_⟩
    · unfold TaskEvent.unplugged
      rw [hactivity]
      cases kind <;> rfl
    · rcases hphase with ⟨-, -, hdue, -, hnew⟩ | ⟨-, -, hnew⟩
      · rw [hnew] at hsince
        rwa [(Prod.mk.inj (List.mem_singleton.mp hsince)).2]
      · simp [hnew] at hsince
    · split
      next hid => rw [hid, h.plugged_iff, iff_false_intro (hold c), iff_false_intro (hnew c)]
      next => rfl

/-- Execution keeps the plugs in order, and no event tells of a vehicle without one. -/
theorem steady [Scalar R] (hsnap : ∀ t ≤ now, grid.snap t ≤ now) :
    Steady now (fun (_ : Unit) (event : TaskEvent R) =>
        if event.unplugged then .error () else .ok ())
      fun vehicles pool _ => Accommodated grid now now pool vehicles where
  ready h v hv := ⟨(h.roster.valid v hv).toValid.inSequence, h.roster.supplied v hv⟩
  beat h hbeat := by
    obtain ⟨hplugged, hnext⟩ := h.beat hsnap hbeat
    exact ⟨(), by simp [hplugged], hnext⟩

end Accommodated

/-- Of noted events, each could be noted. -/
theorem TaskEvent.unplugged_of_noted {events : List (TaskEvent R)}
    (h : events.foldlM (fun (_ : Unit) event => if event.unplugged then .error () else .ok ()) () =
      (.ok () : Except Unit Unit)) : ∀ event ∈ events, event.unplugged = false := by
  induction events with
  | nil => simp
  | cons event rest ih =>
    rw [List.foldlM_cons] at h
    cases hplugged : event.unplugged with
    | true => simp [hplugged, bind, Except.bind] at h
    | false => simpa [hplugged] using ih (by simpa [hplugged, bind, Except.bind] using h)

end DemandTransport
