import DemandTransport.Proofs.Dispatch.Saturation
import DemandTransport.Proofs.Dispatch.Undoing

/-!
# Staying at the charger

Idle time behind a charging task is docked at the charger. A plan is carved from idle time to which
the vehicle comes back when the plan is taken back. That time is docked again if it begins where the
charging task ends. It is not if idle time behind the charging task has been begun, since that stays
where it is and the rest of the time is taken for a departure from the charger, although the vehicle
has not moved.
-/

namespace DemandTransport

namespace Vehicle

variable {R : Type} {front stays before : List (Task R)} {charge stay task : Task R}
  {charger : ChargerId} {v v' : Vehicle R} {depart : Time} {tasks : List (Task R)}

/-- The way back to the begin of an approach does not pass any other work. -/
theorem rdropWhile_append_work {work : Task R} (hwork : isApproach work = false) :
    (front ++ work :: stays).rdropWhile isApproach =
      front ++ work :: stays.rdropWhile isApproach := by
  induction stays using List.reverseRecOn with
  | nil => exact List.rdropWhile_concat_neg _ _ _ (by simp [hwork])
  | append_singleton stays last ih =>
    have hassoc : front ++ work :: (stays ++ [last]) = (front ++ work :: stays) ++ [last] := by simp
    rw [hassoc]
    by_cases hlast : isApproach last = true
    · rw [List.rdropWhile_concat_pos _ _ _ hlast, List.rdropWhile_concat_pos _ _ _ hlast, ih]
    · rw [List.rdropWhile_concat_neg _ _ _ hlast, List.rdropWhile_concat_neg _ _ _ hlast, hassoc]

/-- Idle time belongs to an approach as long as it has not been begun. -/
theorem isApproach_stay {docked : Option ChargerId} (hkind : task.kind = .stay docked) :
    isApproach task = true ↔ task.status = .planned := by
  simp [isApproach, Task.isStay, TaskKind.isStay, hkind]

variable [Scalar R]

/-- Taking back a plan that has been written goes back to the end of the charging task, or to the
last idle time that has been begun behind it. -/
theorem Written.exists_kept (h : Written before stay depart tasks v v')
    (htasks : v.schedule.tasks = front ++ charge :: stays) (hcharge : charge.kind = .charge charger)
    (hdocked : ∀ task ∈ stays, task.kind = .stay (some charger)) :
    ∃ kept, (before ++ stay.partBefore depart).rdropWhile isApproach = front ++ charge :: kept ∧
      (∀ task ∈ kept, task.kind = .stay (some charger)) ∧
      (kept = [] ↔ ∀ task ∈ stays, task.status = .planned) := by
  have hwork : isApproach charge = false := by
    simp [isApproach, Task.isStay, TaskKind.isStay, TaskKind.isDrive, hcharge]
  obtain ⟨others, rfl, rfl⟩ :
      ∃ others, stays = others ++ [stay] ∧ before = front ++ charge :: others := by
    have hsplit := h.old.symm.trans htasks
    rcases List.eq_nil_or_concat stays with rfl | ⟨others, last, rfl⟩
    · obtain ⟨-, hlast⟩ := List.append_inj' hsplit rfl
      obtain rfl : stay = charge := by simpa using hlast
      have hidle := h.idle
      simp [Task.isStay, TaskKind.isStay, hcharge] at hidle
    · rw [List.concat_eq_append, ← List.cons_append, ← List.append_assoc] at hsplit
      obtain ⟨hbefore, hlast⟩ := List.append_inj' hsplit rfl
      obtain rfl : stay = last := by simpa using hlast
      exact ⟨others, List.concat_eq_append, hbefore⟩
  have hstay : stay.kind = .stay (some charger) := hdocked stay (by simp)
  have hpart : ∀ task ∈ others ++ stay.partBefore depart, task.kind = .stay (some charger) := by
    intro task htask
    rcases List.mem_append.mp htask with hold | hcut
    · exact hdocked task (by simp [hold])
    · rw [Task.eq_of_mem_partBefore hcut]
      exact hstay
  refine ⟨(others ++ stay.partBefore depart).rdropWhile isApproach, ?_, fun task htask => ?_, ?_⟩
  · rw [List.append_assoc, List.cons_append, rdropWhile_append_work hwork]
  · exact hpart task ((List.rdropWhile_prefix _ _).subset htask)
  rw [List.rdropWhile_eq_nil_iff]
  constructor
  · intro hall task htask
    rcases List.mem_append.mp htask with hold | hlast
    · exact (isApproach_stay (hdocked task htask)).mp (hall task (by simp [hold]))
    · rw [List.mem_singleton.mp hlast]
      by_cases hbegun : stay.status = .started
      · have hcut : stay.headUntil depart ∈ stay.partBefore depart := by
          simp [h.partBefore_eq hbegun]
        have hhead : (stay.headUntil depart).kind = .stay (some charger) := hstay
        exact (isApproach_stay hhead).mp (hall _ (by simp [hcut]))
      · exact h.planned_of_not_started hbegun
  · intro hplanned task htask
    refine (isApproach_stay (hpart task htask)).mpr ?_
    rcases List.mem_append.mp htask with hold | hcut
    · exact hplanned task (by simp [hold])
    · rw [Task.eq_of_mem_partBefore hcut]
      exact hplanned stay (by simp)

omit [Scalar R] in
/-- Idle time that is given back behind docked idle time is docked only if there is none. -/
theorem docksAt_kept {kept : List (Task R)} (hcharge : charge.kind = .charge charger)
    (hdocked : ∀ task ∈ kept, task.kind = .stay (some charger)) :
    ((front ++ charge :: kept).getLast?.bind fun task => task.kind.docksAt) =
      if kept = [] then some charger else none := by
  rcases List.eq_nil_or_concat kept with rfl | ⟨others, last, rfl⟩
  · simp [hcharge, TaskKind.docksAt]
  · rw [List.concat_eq_append] at hdocked ⊢
    rw [← List.cons_append, ← List.append_assoc, List.getLast?_concat]
    simp [hdocked last (by simp), TaskKind.docksAt]

/-- A vehicle at a charger that is given a plan, which is taken back at once, is idle again from the
end of its charging task to the end of its horizon. Idle time that it has begun remains docked. The
rest is docked, and with it all of that time, exactly if no idle time has been begun. -/
theorem docked_after_retract_iff {network : Network R} {config : DispatchConfig} {now : Time}
    {request : Request} {plan : Insertion R} (hvalid : v.schedule.validate = .ok ())
    (htasks : v.schedule.tasks = front ++ charge :: stays) (hcharge : charge.kind = .charge charger)
    (hdocked : ∀ task ∈ stays, task.kind = .stay (some charger))
    (hfresh : ∀ task ∈ v.schedule.tasks, task.kind.request? ≠ some request.id)
    (h : v.evaluate ⟨network, LeastTime.route, config, now⟩ request = .ok plan) :
    (config.validate = (.ok () : Except (DispatchError R) Unit) → v.schedule.finish < .last →
      ∃ v', commit plan v = .ok () v') ∧
    ∀ v', commit plan v = .ok () v' → ∃ v'' kept idle, retract request.id v' = .ok () v'' ∧
      v''.schedule.validate = .ok () ∧ v''.schedule.finish = v.schedule.finish ∧
      v''.schedule.tasks = front ++ charge :: (kept ++ [idle]) ∧
      (∀ task ∈ kept, task.kind = .stay (some charger)) ∧
      idle.kind = .stay (if ∀ task ∈ stays, task.status = .planned then some charger else none) ∧
      ((∀ task ∈ kept ++ [idle], task.kind = .stay (some charger)) ↔
        ∀ task ∈ stays, task.status = .planned) := by
  have hv := Schedule.validate_eq_ok_iff.mp hvalid
  refine ⟨fun hconfig hlast => ?_, fun v' hcommit => ?_⟩
  · obtain ⟨⟨⟩, v', hcommit, -⟩ :=
      (commit_written (.of_validate LeastTime.route_sound hconfig) hv hlast h).exists_ok
    exact ⟨v', hcommit⟩
  have hctx : Dispatcher.Ready config (LeastTime.route (R := R)) :=
    .of_validate LeastTime.route_sound (validate_of_commit h hcommit)
  have halights := (exists_commit_iff hctx hv h).mp ⟨v', hcommit⟩
  obtain ⟨node, before, stay, t, hwritten, -, -, hleads⟩ :=
    (commit_written_of_alights hctx hv halights h).of_ok hcommit
  have hover : v.schedule.ValidOver v.schedule.start v.schedule.finish := ⟨hv, rfl, rfl⟩
  have hcommitted := @insertAt_replanned R {} _ v _ _ plan.depart plan.tasks hover
    fun task htask => (evaluate_stays h task htask).1
  have hover' := (hcommitted.of_ok hcommit).schedule.valid hover
  have hplanned : ∀ task ∈ plan.tasks, task.status = .planned := fun task htask =>
    (hleads.mem task htask).2
  obtain ⟨first, rest, hfront, hreclaims⟩ :=
    hwritten.reclaims hover'.toValid hplanned hfresh h
  obtain ⟨kept, hkept, hstays, hnone⟩ := hwritten.exists_kept htasks hcharge hdocked
  rw [hkept] at hfront hreclaims
  obtain ⟨⟨⟩, v'', hretract, hnew, hreplanned⟩ := ((hreclaims.and
    (@retract_replanned R {} _ v' request.id)).mono (fun _ _ hends => hends)
      fun _ _ hends => hends.1).exists_ok
  obtain ⟨hvalid'', -, hfinish⟩ := hreplanned.schedule.valid hover'
  generalize hidle : Schedule.reclaimed (front ++ charge :: kept) first _ _ = idle at hnew
  have hkind : idle.kind =
      .stay (if ∀ task ∈ stays, task.status = .planned then some charger else none) := by
    simp only [← hidle, Schedule.reclaimed, docksAt_kept hcharge hstays, hnone]
  refine ⟨v'', kept, idle, hretract, Schedule.validate_eq_ok_iff.mpr hvalid'', hfinish, ?_, hstays,
    hkind, ?_⟩
  · rw [hnew]
    simp
  · constructor
    · intro hall
      by_contra hbegun
      have hdocks := hkind.symm.trans (hall idle (by simp))
      simp [hbegun] at hdocks
    · intro hplanned
      rw [if_pos hplanned] at hkind
      simpa [hnone.mpr hplanned] using hkind

/-- A vehicle that has charged and has not yet begun to idle is given a trip for later. When the
trip is taken back, the vehicle is docked to the end of its horizon. -/
theorem docked_after_retract_charged :
    let charge : Task Rat := { Task.charge ⟨7⟩ ⟨0⟩ .zero (.ofSecs 600) with
      status := .performed, startedAt := some .zero, performedAt := some (.ofSecs 600) }
    let idle : Task Rat :=
      { Task.stay ⟨0⟩ (.ofSecs 600) (.ofSecs 9000) with kind := .stay (some ⟨7⟩) }
    let v : Vehicle Rat := ⟨⟨0⟩, ⟨0⟩, .zero, .ofSecs 9000, 1, none, ⟨[charge, idle]⟩⟩
    let request : Request := ⟨⟨0⟩, ⟨0⟩, ⟨1⟩, ⟨0⟩, .zero, some ⟨.ofSecs 2000, .ofSecs 3000⟩⟩
    ∃ plan v' v'' left,
      v.evaluate ⟨.twoStops, LeastTime.route, {}, .ofSecs 1000⟩ request = .ok plan ∧
      commit plan v = .ok () v' ∧ retract request.id v' = .ok () v'' ∧
      v''.schedule.tasks = charge :: left ∧ ∀ task ∈ left, task.kind = .stay (some ⟨7⟩) := by
  intro charge idle v request
  have hok : (v.evaluate ⟨.twoStops, LeastTime.route, {}, .ofSecs 1000⟩ request).isOk = true := by
    decide +kernel
  cases hplan : v.evaluate ⟨.twoStops, LeastTime.route, {}, .ofSecs 1000⟩ request with
  | error reason => simp [hplan, Except.isOk, Except.toBool] at hok
  | ok plan =>
    obtain ⟨hwrites, hstays⟩ := @docked_after_retract_iff Rat [] [idle] charge ⟨7⟩ v _ _ _ _ _ _
      (by decide +kernel) rfl rfl (by simp [idle]) (by decide) hplan
    obtain ⟨v', hcommit⟩ := hwrites rfl (by decide +kernel)
    obtain ⟨v'', kept, last, hretract, -, -, htasks, -, -, hdocked⟩ := hstays v' hcommit
    refine ⟨plan, v', v'', kept ++ [last], rfl, hcommit, hretract, htasks, hdocked.mpr ?_⟩
    simp [idle, Task.stay]

/-- If the vehicle has begun to idle, what remains of its horizon is not docked any more when the
trip is taken back, although it has not left the charger. -/
theorem undocked_after_retract_idling :
    let charge : Task Rat := { Task.charge ⟨7⟩ ⟨0⟩ .zero (.ofSecs 600) with
      status := .performed, startedAt := some .zero, performedAt := some (.ofSecs 600) }
    let idle : Task Rat := { Task.stay ⟨0⟩ (.ofSecs 600) (.ofSecs 9000) with
      kind := .stay (some ⟨7⟩), status := .started, startedAt := some (.ofSecs 600) }
    let v : Vehicle Rat := ⟨⟨0⟩, ⟨0⟩, .zero, .ofSecs 9000, 1, none, ⟨[charge, idle]⟩⟩
    let request : Request := ⟨⟨0⟩, ⟨0⟩, ⟨1⟩, ⟨0⟩, .zero, some ⟨.ofSecs 2000, .ofSecs 3000⟩⟩
    v.schedule.validate = .ok () ∧
    (∀ task ∈ v.schedule.tasks, task.kind.request? ≠ some request.id) ∧
    ∃ plan v' v'', v.evaluate ⟨.twoStops, LeastTime.route, {}, .ofSecs 1000⟩ request = .ok plan ∧
      commit plan v = .ok () v' ∧ retract request.id v' = .ok () v'' ∧
      v''.schedule.tasks.map (fun task => (task.kind, task.source, task.target)) =
        [(.charge ⟨7⟩, ⟨0⟩, ⟨0⟩), (.stay (some ⟨7⟩), ⟨0⟩, ⟨0⟩), (.stay none, ⟨0⟩, ⟨0⟩)] := by
  intro charge idle v request
  have hchain : ((v.evaluate ⟨.twoStops, LeastTime.route, {}, .ofSecs 1000⟩ request).toOption.bind
      fun plan => ((commit plan).after? v).bind fun v' => ((retract request.id).after? v').map
        fun v'' => v''.schedule.tasks.map fun task => (task.kind, task.source, task.target)) =
      some [(.charge ⟨7⟩, ⟨0⟩, ⟨0⟩), (.stay (some ⟨7⟩), ⟨0⟩, ⟨0⟩), (.stay none, ⟨0⟩, ⟨0⟩)] := by
    decide +kernel
  simp only [Option.bind_eq_some_iff, Option.map_eq_some_iff, Action.after?_eq_some,
    Action.toOption_eq_some] at hchain
  obtain ⟨plan, hplan, v', ⟨⟨⟩, hcommit⟩, v'', ⟨⟨⟩, hretract⟩, htasks⟩ := hchain
  exact ⟨by decide +kernel, by decide, plan, v', v'', hplan, hcommit, hretract, htasks⟩

end Vehicle

end DemandTransport
