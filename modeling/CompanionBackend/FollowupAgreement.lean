import CompanionBackend.WindowAgreement

/-!
# Follow-up messages find their windows

What an accepted schedule resolves is due in a window and its job is dispatched there, as long as
the datetimes on the way stay in the calendar. A candidate at the end of the calendar raises an
`OverflowError` that no caller expects.
-/
namespace CompanionBackend.FollowupSchedules

open Runs ProviderEvents Dictionaries CapabilityRules DailyWindows
open CapabilityEvidence (PyDatetime exactDict replaceZ)
open FollowupJobs (dayMicros shanghaiOffset windowBounds)

/-- The candidate of a preview in Shanghai. -/
def PreviewInput.here (input : PreviewInput) : ℤ := input.wall - input.offset + shanghaiOffset

/-- The jitter is one of the schedule's. -/
def JitterAllowed (schedule : Json) (jitter : ℤ) : Prop :=
  ∃ low high, jitterRange schedule = some (low, high) ∧ low ≤ jitter ∧ jitter ≤ high

/-- A preview is answered with a moment in a window or cancelled for its delay, and one of another
form is refused. -/
def Resolves (P : Platform) (schedule preview : Json) : Prop :=
  match readPreview P preview with
  | some input => ∃ r, resolveFollowupPreview P schedule preview = .ok r ∧
      (JitterAllowed schedule input.jitter →
        ∃ due, DueAt (dailyWindows P schedule input.stage) input.here input.jitter due ∧
          Open dayMicros (dailyWindows P schedule input.stage) due ∧ Answers input.here due r)
  | none => resolveFollowupPreview P schedule preview = .error previewInvalid

/-- The job is staged no later than its limit, and a worker finds a window open when it is due. -/
def Dispatched (P : Platform) (job : Except Raised StagedJob) : Prop :=
  ∃ j, job = .ok j ∧ j.dueAt ≤ j.latestDueAt ∧
    nextWindow P j.timezoneSnapshot j.allowedWindowSnapshot j.dueAt = .ok none

/-- An open window, or the earliest opening with nothing open before it. -/
def Finds (ws : List Window) (now : Instant) (result : Except Raised (Option Instant)) : Prop :=
  (result = .ok none ∧ Open dayMicros ws (now + shanghaiOffset)) ∨
    ∃ o, result = .ok (some o) ∧ ¬Open dayMicros ws (now + shanghaiOffset) ∧
      NextOpening dayMicros ws (now + shanghaiOffset) (o + shanghaiOffset) ∧
      ∀ u, now ≤ u → u < o → ¬Open dayMicros ws (u + shanghaiOffset)

/-! ### Previews -/

theorem readPreview_jitter {P : Platform} {preview : Json} {input : PreviewInput}
    (h : readPreview P preview = some input) : 0 ≤ input.jitter ∧ input.jitter ≤ 20 := by
  unfold readPreview at h
  split_ifs at h
  split at h
  · split_ifs at h with hrange
    split at h
    · obtain rfl := Option.some.inj h
      exact hrange
    · simp at h
  · simp at h

theorem toShanghai_eq (wall offset : ℤ) :
    toShanghai wall offset =
      if InRange (wall - offset) ∧ InRange (wall - offset + shanghaiOffset) then
        .ok (wall - offset + shanghaiOffset)
      else .error .overflowError := by
  unfold toShanghai checked
  by_cases hutc : InRange (wall - offset)
  · rw [if_pos hutc]
    by_cases hhere : InRange (wall - offset + shanghaiOffset)
    · rw [if_pos ⟨hutc, hhere⟩]
      exact if_pos hhere
    · rw [if_neg fun h => hhere h.2]
      exact if_neg hhere
  · rw [if_neg hutc, if_neg fun h => hutc h.1]
    rfl

theorem resolve_of_read {P : Platform} (schedule : Json) {preview : Json} {input : PreviewInput}
    (h : readPreview P preview = some input) :
    resolveFollowupPreview P schedule preview =
      if InRange (input.wall - input.offset) ∧ InRange input.here then
        resolveCandidate P schedule input input.here
      else .error .overflowError := by
  have hhere : toShanghai input.wall input.offset =
      if InRange (input.wall - input.offset) ∧ InRange input.here then .ok input.here
      else .error .overflowError := toShanghai_eq input.wall input.offset
  unfold resolveFollowupPreview validatePreviewInput
  rw [h]
  by_cases hrange : InRange (input.wall - input.offset) ∧ InRange input.here
  · rw [if_pos hrange] at hhere ⊢
    simp only [hhere]
    rfl
  · rw [if_neg hrange] at hhere ⊢
    simp only [hhere]
    rfl

section Schedule

variable {P : Platform} {schedule : Json} {low high : ℤ}

/-- Whatever the jitter, an answer needs the days that the resolver looks at. -/
theorem resolveCandidate_answers (h : Accepted P schedule low high) (input : PreviewInput)
    (hjitter : 0 ≤ input.jitter ∧ input.jitter ≤ 20) {candidate : ℤ} (hin : InRange candidate) :
    (Foreseen (dailyWindows P schedule input.stage) candidate → ∃ r due,
      resolveCandidate P schedule input candidate = .ok r ∧ InRange due ∧
        DueAt (dailyWindows P schedule input.stage) candidate input.jitter due ∧
        Answers candidate due r) ∧
    (¬Foreseen (dailyWindows P schedule input.stage) candidate →
      resolveCandidate P schedule input candidate = .error .overflowError) := by
  obtain ⟨windows, ms, hwindows, hms⟩ := h.stages input.stage
  rw [dailyWindows_eq hwindows hms]
  by_cases hopen : Open dayMicros (ms.map microWindow) candidate
  · obtain ⟨r, hr, hdue, hcancel⟩ := resolve_open hwindows hms hopen
    refine ⟨fun _ => ⟨r, candidate, hr, hin, .inl ⟨hopen, rfl⟩, ?_⟩,
      fun hnot => absurd (.inl hopen) hnot⟩
    have hle : candidate ≤ candidate + dayMicros := by simp only [dayMicros]; omega
    rw [Answers, if_pos hle]
    exact ⟨hdue, hcancel⟩
  · have hshut := resolve_shut hwindows hms h.delay hin hjitter hopen
    split_ifs at hshut with hroom
    · obtain ⟨r, o, hr, hnext, hdue, hanswer⟩ := hshut
      exact ⟨fun _ => ⟨r, _, hr, hdue, .inr ⟨hopen, o, hnext, rfl⟩, hanswer⟩,
        fun hnot => absurd (.inr hroom) hnot⟩
    · refine ⟨fun hforeseen => ?_, fun _ => hshut⟩
      rcases hforeseen with hopen' | hroom'
      · exact absurd hopen' hopen
      · exact absurd hroom' hroom

/-- A moment that the schedule's jitter leads to lies in a window, less than a day away. -/
theorem due_open (h : Accepted P schedule low high) {stage : RelationshipStage}
    {candidate jitter due : ℤ} (hlow : 0 ≤ jitter) (hhigh : jitter ≤ high)
    (hdue : DueAt (dailyWindows P schedule stage) candidate jitter due) :
    Open dayMicros (dailyWindows P schedule stage) due ∧ candidate ≤ due ∧
      due < candidate + dayMicros := by
  obtain ⟨windows, ms, hwindows, hms⟩ := h.stages stage
  rw [dailyWindows_eq hwindows hms] at hdue ⊢
  rcases hdue with ⟨hopen, rfl⟩ | ⟨hshut, o, hnext, rfl⟩
  · exact ⟨hopen, le_rfl, by simp only [dayMicros]; omega⟩
  · have hlong := longer_than_jitter hms.good hhigh
    have hlater := hnext.later
    have hnonneg : 0 ≤ jitter * minuteMicros := by simp only [minuteMicros]; omega
    exact ⟨hnext.open_add hnonneg hlong, by omega, hnext.add_lt day_pos hshut hlong⟩

/-- Previews of an accepted schedule, whatever their form. -/
theorem resolves_iff (h : Accepted P schedule low high) (preview : Json) :
    Resolves P schedule preview ↔ ∀ input, readPreview P preview = some input →
      InRange (input.wall - input.offset) ∧ InRange input.here ∧
        Foreseen (dailyWindows P schedule input.stage) input.here := by
  unfold Resolves
  cases hread : readPreview P preview with
  | none =>
    simp only [reduceCtorEq, false_imp_iff, implies_true, iff_true]
    unfold resolveFollowupPreview validatePreviewInput
    rw [hread]
    rfl
  | some input =>
    simp only [Option.some.injEq, forall_eq', resolve_of_read schedule hread]
    have hjitter := readPreview_jitter hread
    by_cases hrange : InRange (input.wall - input.offset) ∧ InRange input.here
    · rw [if_pos hrange]
      obtain ⟨hanswer, hover⟩ := resolveCandidate_answers h input hjitter hrange.2
      constructor
      · rintro ⟨r, hr, -⟩
        refine ⟨hrange.1, hrange.2, by_contra fun hnot => ?_⟩
        rw [hover hnot] at hr
        simp at hr
      · rintro ⟨-, -, hforeseen⟩
        obtain ⟨r, due, hr, -, hdue, hanswers⟩ := hanswer hforeseen
        refine ⟨r, hr, ?_⟩
        rintro ⟨low', high', hallowed, -, hhigh⟩
        obtain ⟨-, rfl⟩ := Prod.mk.inj (Option.some.inj (h.jitter.symm.trans hallowed))
        exact ⟨due, hdue, (due_open h hjitter.1 hhigh hdue).1, hanswers⟩
    · rw [if_neg hrange]
      constructor
      · rintro ⟨r, hr, -⟩
        simp at hr
      · rintro ⟨hutc, hhere, -⟩
        exact absurd ⟨hutc, hhere⟩ hrange

/-! ### Workers -/

/-- The worker's answer for the windows of a stage. -/
theorem nextWindow_eq (h : Accepted P schedule low high) {stage : RelationshipStage}
    {windows : List Json} (hwindows : stageWindows schedule stage = .ok windows) {now : Instant}
    (hnow : InRange now) :
    (InRange (now + shanghaiOffset) →
        Passable (dailyWindows P schedule stage) (now + shanghaiOffset) →
      Finds (dailyWindows P schedule stage) now
        (nextWindow P (schedule.field "timezone") windows now)) ∧
    (¬(InRange (now + shanghaiOffset) ∧
        Passable (dailyWindows P schedule stage) (now + shanghaiOffset)) →
      nextWindow P (schedule.field "timezone") windows now = .error .overflowError) := by
  obtain ⟨windows', ms, hwindows', hms⟩ := h.stages stage
  obtain rfl : windows' = windows := Except.ok.inj (hwindows'.symm.trans hwindows)
  have hws := within_day hms.good
  rw [dailyWindows_eq hwindows hms]
  have hlow : minWall + shanghaiOffset ≤ now + shanghaiOffset := by
    have := hnow.1
    omega
  unfold nextWindow
  rw [if_pos ⟨h.zone, hms.some⟩]
  by_cases hin : InRange (now + shanghaiOffset)
  · rw [checked, if_pos hin]
    obtain ⟨hok, hover⟩ := nextWindowLoop_eq hms.good hin hlow []
    refine ⟨fun _ hpass => ?_, fun hnot => hover fun hpass => hnot ⟨hin, hpass⟩⟩
    simp only [bind, Except.bind]
    rw [hok hpass]
    split_ifs with hany
    · obtain ⟨m, hm, hholds⟩ := List.any_eq_true.mp hany
      exact .inl ⟨rfl, (open_iff_holds hws).mpr ⟨m, hm, hholds⟩⟩
    · have hshut : ¬Open dayMicros (ms.map microWindow) (now + shanghaiOffset) := by
        rw [open_iff_holds hws]
        simpa using hany
      rw [List.nil_append]
      cases hmin : (ms.map fun m => openingAfter dayMicros (microWindow m).1
          (now + shanghaiOffset) - shanghaiOffset).min? with
      | none =>
        rw [List.min?_eq_none_iff, List.map_eq_nil_iff] at hmin
        subst hmin
        exact absurd (List.forall₂_nil_right_iff.mp hms.good) hms.some
      | some o =>
        obtain ⟨hmem, hleast⟩ := List.min?_eq_some_iff.mp hmin
        have hnext : NextOpening dayMicros (ms.map microWindow) (now + shanghaiOffset)
            (o + shanghaiOffset) := by
          refine nextOpening_of_least day_pos hws
            (?_ : ∀ u ∈ ms.map fun m => openingAfter dayMicros (microWindow m).1
              (now + shanghaiOffset), _) ?_ ?_ ?_
          · intro u hu
            obtain ⟨m, hm, rfl⟩ := List.mem_map.mp hu
            obtain ⟨k, hk⟩ := openingAfter_eq dayMicros (microWindow m).1 (now + shanghaiOffset)
            exact ⟨lt_openingAfter day_pos (hws _ (List.mem_map_of_mem hm)).1,
              _, List.mem_map_of_mem hm, k, hk⟩
          · intro w hw
            obtain ⟨m, hm, rfl⟩ := List.mem_map.mp hw
            exact List.mem_map.mpr ⟨m, hm, rfl⟩
          · obtain ⟨m, hm, rfl⟩ := List.mem_map.mp hmem
            exact List.mem_map.mpr ⟨m, hm, by ring⟩
          · intro u hu
            obtain ⟨m, hm, rfl⟩ := List.mem_map.mp hu
            have := hleast _ (List.mem_map_of_mem hm)
            omega
        refine .inr ⟨o, rfl, hshut, hnext, fun u hle hlt => ?_⟩
        exact hnext.shut_until hshut (by linarith) (by linarith)
  · rw [checked, if_neg hin]
    exact ⟨fun hin' => absurd hin' hin, fun _ => rfl⟩

/-! ### Jobs -/

theorem replaceZ_of_plain {t : Text} (h : 'Z' ∉ t) : replaceZ t = t := by
  unfold replaceZ
  induction t with
  | nil => rfl
  | cons c t ih =>
    rw [List.mem_cons, not_or] at h
    rw [List.flatMap_cons, if_neg (Ne.symm h.1), ih h.2]
    rfl

theorem find_stage (stage : RelationshipStage) :
    RelationshipStage.all.find? (fun s => (Json.str stage.name.toList).isStr s.name) =
      some stage := by
  cases stage <;> simp [RelationshipStage.all, RelationshipStage.name, Json.isStr]

/-- The preview of a job is read as it was made. -/
theorem readPreview_previewOf (P : Platform) (stage : RelationshipStage) {candidate jitter : ℤ}
    (hin : InRange candidate) (hjitter : 0 ≤ jitter ∧ jitter ≤ 20) :
    readPreview P (previewOf P stage candidate jitter) =
      some ⟨stage, P.isoformat ⟨candidate, some 0⟩, candidate, 0, jitter⟩ := by
  have hexact : exactDict (previewOf P stage candidate jitter)
      ["stage", "candidate_at", "jitter_minutes"] = true := by
    simp [exactDict, previewOf, Json.has, Json.get, Dict.get]
  have hstage : (previewOf P stage candidate jitter).field "stage" =
      .str stage.name.toList := by simp [previewOf, Json.field, Json.get, Dict.get]
  have hjit : (previewOf P stage candidate jitter).field "jitter_minutes" = .int jitter := by
    simp [previewOf, Json.field, Json.get, Dict.get]
  have htext : (previewOf P stage candidate jitter).field "candidate_at" =
      .str (P.isoformat ⟨candidate, some 0⟩) := by
    simp [previewOf, Json.field, Json.get, Dict.get]
  unfold readPreview
  rw [if_pos hexact, hstage, hjit, htext, find_stage]
  simp only [if_pos hjitter, replaceZ_of_plain (P.plain _), P.read_back 0 hin]

theorem minutesDelta_of_inRange {ended : Naive} {minutes : ℤ}
    (h : InRange (ended.1 + minutes * minuteMicros)) :
    minutesDelta minutes = .ok (minutes * minuteMicros) := by
  have hended : InRange ended.1 := ended.2
  unfold minutesDelta
  rw [if_pos]
  simp only [InRange, minWall, maxWall, dayMicros] at *
  omega

/-- The call's own schedule is in force if it is accepted. -/
theorem stageFollowup_eq (hvalid : validateFollowupSchedule P schedule = [])
    (h : Accepted P schedule low high) {call : Call} (hcall : scheduleOf call = schedule)
    {candidate : Candidate} {level : Option ℤ} {allow : Bool} {stage : RelationshipStage}
    (hstage : stageOf level allow = .ok stage) {jitterMinutes : Option ℤ} {drawn : ℤ}
    (hlow : low ≤ jitterMinutes.getD (low + drawn))
    (hhigh : jitterMinutes.getD (low + drawn) ≤ high) :
    ∃ version, stageFollowup P call candidate level allow jitterMinutes drawn =
      stageCandidate P call candidate stage schedule version
        (jitterMinutes.getD (low + drawn)) := by
  unfold stageFollowup scheduleInForce
  rw [hstage, hcall, hvalid]
  simp only [List.isEmpty_nil, if_true, bind, Except.bind, h.jitter]
  rw [if_neg (not_or.mpr ⟨not_lt.mpr hlow, not_lt.mpr hhigh⟩)]
  exact ⟨_, rfl⟩

theorem dueOf_some {candidate due : ℤ} {r : Resolution} (hdue : r.resolvedDueAt = some due)
    (hin : InRange due) : dueOf P candidate r = checked (due - shanghaiOffset) := by
  unfold dueOf
  simp only [hdue, P.read_back shanghaiOffset hin, Option.getD_some]

section Job

variable {call : Call} {candidate : Candidate} {stage : RelationshipStage} {version : Text}
  {jitter t : ℤ}

theorem stageCandidate_of_error (ht : call.endedAt.1 + candidate.delayMinutes * minuteMicros = t)
    (hin : InRange t) {e : Raised}
    (hr : resolveFollowupPreview P schedule (previewOf P stage t jitter) = .error e) :
    stageCandidate P call candidate stage schedule version jitter = .error e := by
  subst ht
  unfold stageCandidate
  rw [minutesDelta_of_inRange hin]
  simp only [bind, Except.bind, checked, if_pos hin, hr]

theorem stageCandidate_of_resolved (h : Accepted P schedule low high) {windows : List Json}
    (hwindows : stageWindows schedule stage = .ok windows)
    (ht : call.endedAt.1 + candidate.delayMinutes * minuteMicros = t) (hin : InRange t)
    {r : Resolution}
    (hr : resolveFollowupPreview P schedule (previewOf P stage t jitter) = .ok r) :
    stageCandidate P call candidate stage schedule version jitter = (do
      let due ← dueOf P t r
      let latest ← checked (t + dayMicros)
      .ok (jobRow call candidate stage schedule version windows r t due latest)) := by
  subst ht
  have hhours : (24 : ℤ) * (60 * minuteMicros) = dayMicros := by decide
  unfold stageCandidate
  rw [minutesDelta_of_inRange hin]
  simp only [bind, Except.bind, checked, if_pos hin, hr, h.delay, hwindows, hhours]

/-- A delay beyond the calendar raises. -/
theorem stageCandidate_overflow (ht : call.endedAt.1 + candidate.delayMinutes * minuteMicros = t)
    (hin : ¬InRange t) :
    stageCandidate P call candidate stage schedule version jitter = .error .overflowError := by
  subst ht
  unfold stageCandidate minutesDelta
  split_ifs
  · simp only [bind, Except.bind, checked, if_neg hin]
  · rfl

/-- There is room for a day behind the reading. -/
theorem passable_of_room {ws : List Window} {here : ℤ}
    (h : InRange ((here / dayMicros + 1) * dayMicros)) : Passable ws here :=
  fun _ _ => .inr h

/-- Where the candidate, a day behind it and the days of the resolver are in the calendar, and no
window that is over is met on its last day. -/
def Stageable (ws : List Window) (t : ℤ) : Prop :=
  InRange t ∧ InRange (t + shanghaiOffset) ∧ InRange (t + dayMicros) ∧
    Foreseen ws (t + shanghaiOffset) ∧
    (Open dayMicros ws (t + shanghaiOffset) → Passable ws (t + shanghaiOffset))

variable (P schedule stage) in
theorem resolve_previewOf (hin : InRange t) (hjitter : 0 ≤ jitter ∧ jitter ≤ 20) :
    resolveFollowupPreview P schedule (previewOf P stage t jitter) =
      if InRange (t + shanghaiOffset) then
        resolveCandidate P schedule ⟨stage, P.isoformat ⟨t, some 0⟩, t, 0, jitter⟩
          (t + shanghaiOffset)
      else .error .overflowError := by
  have hresolve := resolve_of_read schedule (readPreview_previewOf P stage hin hjitter)
  simpa only [PreviewInput.here, sub_zero, hin, true_and] using hresolve

/-- A job that is staged for a foreseen candidate. -/
theorem stageCandidate_foreseen (version : Text) (h : Accepted P schedule low high)
    (hjitter : 0 ≤ jitter ∧ jitter ≤ 20) (hhigh : jitter ≤ high) {windows : List Json}
    (hwindows : stageWindows schedule stage = .ok windows)
    (ht : call.endedAt.1 + candidate.delayMinutes * minuteMicros = t) (hin : InRange t)
    (hhere : InRange (t + shanghaiOffset))
    (hforeseen : Foreseen (dailyWindows P schedule stage) (t + shanghaiOffset)) :
    ∃ r due, DueAt (dailyWindows P schedule stage) (t + shanghaiOffset) jitter due ∧
      InRange due ∧ InRange (due - shanghaiOffset) ∧
      stageCandidate P call candidate stage schedule version jitter =
        (checked (t + dayMicros)).map
          (jobRow call candidate stage schedule version windows r t (due - shanghaiOffset)) := by
  obtain ⟨r, due, hr, hduein, hdue, hanswer⟩ :=
    (resolveCandidate_answers h ⟨stage, P.isoformat ⟨t, some 0⟩, t, 0, jitter⟩ hjitter hhere).1 hforeseen
  obtain ⟨-, hle, hlt⟩ := due_open h hjitter.1 hhigh hdue
  rw [Answers, if_pos hlt.le] at hanswer
  have hutc : InRange (due - shanghaiOffset) := by
    simp only [InRange, minWall, maxWall, shanghaiOffset] at *
    omega
  have hresolve : resolveFollowupPreview P schedule (previewOf P stage t jitter) = .ok r := by
    rw [resolve_previewOf P schedule stage hin hjitter, if_pos hhere, hr]
  refine ⟨r, due, hdue, hduein, hutc, ?_⟩
  rw [stageCandidate_of_resolved h hwindows ht hin hresolve, dueOf_some hanswer.1 hduein, checked,
    if_pos hutc]
  rfl

/-- A staged job is due in a window, and its worker sees it open. -/
theorem dispatched_of_stageable (h : Accepted P schedule low high)
    (hjitter : 0 ≤ jitter ∧ jitter ≤ 20) (hhigh : jitter ≤ high)
    (ht : call.endedAt.1 + candidate.delayMinutes * minuteMicros = t)
    (hfits : Stageable (dailyWindows P schedule stage) t) :
    Dispatched P (stageCandidate P call candidate stage schedule version jitter) := by
  obtain ⟨hin, hhere, hlatest, hforeseen, hpass⟩ := hfits
  obtain ⟨windows, -, hwindows, -⟩ := h.stages stage
  obtain ⟨r, due, hdue, hduein, hutc, hstaged⟩ := stageCandidate_foreseen version h
    hjitter hhigh hwindows ht hin hhere hforeseen
  obtain ⟨hopen, hle, hlt⟩ := due_open h hjitter.1 hhigh hdue
  have hback : due - shanghaiOffset + shanghaiOffset = due := by ring
  have hpassable : Passable (dailyWindows P schedule stage) due := by
    rcases hdue with ⟨hopen', rfl⟩ | ⟨hshut, -⟩
    · exact hpass hopen'
    · have hroom := hforeseen.resolve_left hshut
      refine passable_of_room ?_
      simp only [InRange, minWall, maxWall, shanghaiOffset, dayMicros] at *
      omega
  have hfinds := (nextWindow_eq h hwindows hutc).1 (by rwa [hback]) (by rwa [hback])
  rw [Finds, hback] at hfinds
  rw [checked, if_pos hlatest] at hstaged
  refine ⟨_, hstaged, ?_, ?_⟩
  · change due - shanghaiOffset ≤ t + dayMicros
    omega
  · rcases hfinds with ⟨hnone, -⟩ | ⟨o, -, hshut, -⟩
    · exact hnone
    · exact absurd hopen hshut

/-- Nothing else is staged, or its worker raises. -/
theorem stageable_of_dispatched (h : Accepted P schedule low high)
    (hjitter : 0 ≤ jitter ∧ jitter ≤ 20) (hhigh : jitter ≤ high)
    (ht : call.endedAt.1 + candidate.delayMinutes * minuteMicros = t)
    (hdispatched : Dispatched P (stageCandidate P call candidate stage schedule version jitter)) :
    Stageable (dailyWindows P schedule stage) t := by
  obtain ⟨job, hjob, -, hnext⟩ := hdispatched
  have hin : InRange t := by
    by_contra hin
    rw [stageCandidate_overflow ht hin] at hjob
    simp at hjob
  have hhere : InRange (t + shanghaiOffset) := by
    by_contra hhere
    have hresolve := resolve_previewOf P schedule stage hin hjitter
    rw [if_neg hhere] at hresolve
    rw [stageCandidate_of_error ht hin hresolve] at hjob
    simp at hjob
  have hforeseen : Foreseen (dailyWindows P schedule stage) (t + shanghaiOffset) := by
    by_contra hforeseen
    have hover := (resolveCandidate_answers h
      ⟨stage, P.isoformat ⟨t, some 0⟩, t, 0, jitter⟩ hjitter hhere).2 hforeseen
    have hresolve := resolve_previewOf P schedule stage hin hjitter
    rw [if_pos hhere, hover] at hresolve
    rw [stageCandidate_of_error ht hin hresolve] at hjob
    simp at hjob
  obtain ⟨windows, -, hwindows, -⟩ := h.stages stage
  obtain ⟨r, due, hdue, -, hutc, hstaged⟩ := stageCandidate_foreseen version h
    hjitter hhigh hwindows ht hin hhere hforeseen
  rw [hstaged, checked] at hjob
  split_ifs at hjob with hlatest
  · obtain rfl := Except.ok.inj hjob
    refine ⟨hin, hhere, hlatest, hforeseen, fun hopen => ?_⟩
    obtain rfl : due = t + shanghaiOffset := by
      rcases hdue with ⟨-, hdue⟩ | ⟨hshut, -⟩
      · exact hdue
      · exact absurd hopen hshut
    by_contra hpass
    have hback : t + shanghaiOffset - shanghaiOffset + shanghaiOffset = t + shanghaiOffset := by ring
    have hover := (nextWindow_eq h hwindows hutc).2 (by rw [hback]; exact fun h => hpass h.2)
    have hclash := hover.symm.trans hnext
    simp at hclash
  · simp [Except.map] at hjob

end Job

end Schedule

theorem not_finds_overflow {ws : List Window} {now : Instant} :
    ¬Finds ws now (.error .overflowError) := by
  rintro (⟨h, -⟩ | ⟨o, h, -⟩) <;> simp at h

/-- Where the calendar has room, an accepted schedule resolves what its windows say, jobs are due in
a window and dispatched there, and the worker finds the next opening; elsewhere it raises. -/
theorem followup_windows_agree (P : Platform) (schedule : Json)
    (hvalid : validateFollowupSchedule P schedule = []) :
    (∀ preview, Resolves P schedule preview ↔ ∀ input, readPreview P preview = some input →
      InRange (input.wall - input.offset) ∧ InRange input.here ∧
        Foreseen (dailyWindows P schedule input.stage) input.here) ∧
    (∀ (call : Call) (candidate : Candidate) (level : Option ℤ) (allow : Bool)
        (stage : RelationshipStage) (jitterMinutes : Option ℤ) (drawn low high : ℤ),
      scheduleOf call = schedule → stageOf level allow = .ok stage →
      jitterRange schedule = some (low, high) → low ≤ jitterMinutes.getD (low + drawn) →
      jitterMinutes.getD (low + drawn) ≤ high →
      (Dispatched P (stageFollowup P call candidate level allow jitterMinutes drawn) ↔
        Stageable (dailyWindows P schedule stage)
          (call.endedAt.1 + candidate.delayMinutes * minuteMicros))) ∧
    (∀ (stage : RelationshipStage) (windows : List Json) (now : Instant),
      stageWindows schedule stage = .ok windows → InRange now →
      (Finds (dailyWindows P schedule stage) now
          (nextWindow P (schedule.field "timezone") windows now) ↔
        InRange (now + shanghaiOffset) ∧
          Passable (dailyWindows P schedule stage) (now + shanghaiOffset))) := by
  obtain ⟨low, high, h⟩ := accepted_of_validate hvalid
  refine ⟨resolves_iff h, ?_, ?_⟩
  · intro call candidate level allow stage jitterMinutes drawn low' high' hcall hstage hrange
      hlow hhigh
    obtain ⟨rfl, rfl⟩ := Prod.mk.inj (Option.some.inj (h.jitter.symm.trans hrange))
    obtain ⟨version, hstaged⟩ := stageFollowup_eq hvalid h hcall hstage hlow hhigh
    obtain ⟨-, hnonneg, -, hmost⟩ := jitterRange_eq h.jitter
    rw [hstaged]
    have hjitter := And.intro (hnonneg.trans hlow) (hhigh.trans hmost)
    exact ⟨stageable_of_dispatched h hjitter hhigh rfl, dispatched_of_stageable h hjitter hhigh rfl⟩
  · intro stage windows now hwindows hnow
    obtain ⟨hfinds, hover⟩ := nextWindow_eq h hwindows hnow
    constructor
    · intro hfound
      by_contra hfits
      rw [hover hfits] at hfound
      exact not_finds_overflow hfound
    · rintro ⟨hin, hpass⟩
      exact hfinds hin hpass

/-! ### A platform -/

/-- As many signs as the number says. -/
def tally (n : ℤ) : Text := List.replicate n.toNat '+' ++ List.replicate (-n).toNat '-'

def readTally (t : Text) : ℤ := t.count '+' - t.count '-'

theorem readTally_tally (n : ℤ) : readTally (tally n) = n := by
  simp only [readTally, tally, List.count_append, List.count_replicate]
  simp <;> omega

theorem mem_tally {n : ℤ} {c : Char} (h : c ∈ tally n) : c = '+' ∨ c = '-' := by
  rcases List.mem_append.mp h with h | h
  · exact .inl (List.eq_of_mem_replicate h)
  · exact .inr (List.eq_of_mem_replicate h)

/-- Texts of datetimes as they are written. -/
def writtenDatetimes : List (Text × PyDatetime) :=
  [("2026-03-02T01:30:00+00:00".toList, ⟨1772415000000000, some 0⟩),
    ("2026-03-02T09:30:00+08:00".toList, ⟨1772443800000000, some 28800000000⟩),
    ("9999-12-31T20:00:00+00:00".toList, ⟨253402286400000000, some 0⟩)]

/-- Other datetimes are written as numbers. -/
def tallyDatetime (t : PyDatetime) : Text := tally t.wall ++ '/' :: tally (t.utcoffset.getD 0)

def readDatetime (text : Text) : PyDatetime :=
  ⟨readTally (text.takeWhile (· ≠ '/')), some (readTally ((text.dropWhile (· ≠ '/')).drop 1))⟩

theorem readDatetime_tally (wall offset : ℤ) :
    readDatetime (tallyDatetime ⟨wall, some offset⟩) = ⟨wall, some offset⟩ := by
  have hall : ∀ c ∈ tally wall, (decide (c ≠ '/')) = true := by
    intro c hc
    rcases mem_tally hc with rfl | rfl <;> decide
  have htake : ∀ rest : Text, (tally wall ++ '/' :: rest).takeWhile (· ≠ '/') = tally wall := by
    intro rest
    rw [List.takeWhile_append_of_pos hall]
    simp
  have hdrop : ∀ rest : Text, (tally wall ++ '/' :: rest).dropWhile (· ≠ '/') = '/' :: rest := by
    intro rest
    rw [List.dropWhile_append_of_pos hall]
    simp
  simp only [readDatetime, tallyDatetime, htake, hdrop, List.drop_succ_cons, List.drop_zero,
    readTally_tally, Option.getD_some]

def sampleIsoformat (t : PyDatetime) : Text :=
  ((writtenDatetimes.find? fun e => decide (e.2 = t)).map Prod.fst).getD (tallyDatetime t)

def sampleFromisoformat (text : Text) : Option PyDatetime :=
  some (((writtenDatetimes.find? fun e => decide (e.1 = text)).map Prod.snd).getD
    (readDatetime text))

theorem written_once : ∀ e ∈ writtenDatetimes,
    (writtenDatetimes.find? fun e' => decide (e'.1 = e.1)) = some e := by decide

theorem colon_written : ∀ e ∈ writtenDatetimes, ':' ∈ e.1 := by decide

theorem plain_written : ∀ e ∈ writtenDatetimes, 'Z' ∉ e.1 := by decide

theorem mem_tallyDatetime {t : PyDatetime} {c : Char} (h : c ∈ tallyDatetime t) :
    c = '+' ∨ c = '-' ∨ c = '/' := by
  rcases List.mem_append.mp h with h | h
  · rcases mem_tally h with rfl | rfl <;> simp
  · rcases List.mem_cons.mp h with rfl | h
    · simp
    · rcases mem_tally h with rfl | rfl <;> simp

theorem tallyDatetime_not_written (t : PyDatetime) :
    (writtenDatetimes.find? fun e => decide (e.1 = tallyDatetime t)) = none := by
  refine List.find?_eq_none.mpr fun e he heq => ?_
  have hcolon : ':' ∈ tallyDatetime t := of_decide_eq_true heq ▸ colon_written e he
  exact absurd (mem_tallyDatetime hcolon) (by decide)

/-- A platform that reads and writes some datetimes as they are. -/
def samplePlatform : Platform where
  service := ⟨60, 60, fun c => if c.isDigit then some (c.toNat - '0'.toNat) else none, fun _ => []⟩
  fromisoformat := sampleFromisoformat
  isoformat := sampleIsoformat
  str := fun _ => "1".toList
  decimal_lt := by
    intro c n h
    dsimp only at h
    split_ifs at h with hc
    obtain rfl := Option.some.inj h
    have hle : c.toNat ≤ 57 := (Char.isDigit_iff_toNat.mp hc).2
    have hzero : '0'.toNat = 48 := rfl
    omega
  read_back := by
    intro wall offset _
    unfold sampleFromisoformat sampleIsoformat
    cases hfind : writtenDatetimes.find? fun e => decide (e.2 = ⟨wall, some offset⟩) with
    | none =>
      simp only [Option.map_none, Option.getD_none, tallyDatetime_not_written, readDatetime_tally]
    | some e =>
      have hmem := List.mem_of_find?_eq_some hfind
      have hfound := List.find?_some hfind
      have heq : e.2 = ⟨wall, some offset⟩ := of_decide_eq_true hfound
      simp only [Option.map_some, Option.getD_some, written_once e hmem, heq]
  plain := by
    intro t h
    unfold sampleIsoformat at h
    cases hfind : writtenDatetimes.find? fun e => decide (e.2 = t) with
    | none =>
      rw [hfind] at h
      exact absurd (mem_tallyDatetime h) (by decide)
    | some e =>
      rw [hfind] at h
      exact plain_written e (List.mem_of_find?_eq_some hfind) h

theorem default_accepted : validateFollowupSchedule samplePlatform defaultFollowupSchedule = [] := by
  decide

/-- `{"stage": "friend", "candidate_at": …, "jitter_minutes": …}`. -/
def samplePreview (candidate : String) (jitter : ℤ) : Json :=
  .obj [("stage".toList, .str "friend".toList), ("candidate_at".toList, .str candidate.toList),
    ("jitter_minutes".toList, .int jitter)]

/-- In the morning of a day, friends are written to from half past nine. -/
theorem followup_windows_agree_morning :
    Resolves samplePlatform defaultFollowupSchedule
        (samplePreview "2026-03-02T01:30:00+00:00" 7) ∧
      resolveFollowupPreview samplePlatform defaultFollowupSchedule
        (samplePreview "2026-03-02T01:30:00+00:00" 7) =
      .ok ⟨.friend, "2026-03-02T01:30:00+00:00".toList, .inWindow, true,
        some (1772443800000000, 1772488800000000), 0, some 1772443800000000, some 0, none⟩ := by
  obtain ⟨hresolves, -⟩ :=
    followup_windows_agree samplePlatform defaultFollowupSchedule default_accepted
  refine ⟨(hresolves _).mpr fun input hinput => ?_, by decide⟩
  have hread : readPreview samplePlatform (samplePreview "2026-03-02T01:30:00+00:00" 7) =
      some ⟨.friend, "2026-03-02T01:30:00+00:00".toList, 1772415000000000, 0, 7⟩ := by
    decide
  obtain rfl := Option.some.inj (hread.symm.trans hinput)
  exact ⟨by decide, by decide, .inr (by decide)⟩

/-- A candidate on the last evening of the calendar is behind its end in Shanghai: the preview
raises what is not a `VoiceConfigError`. -/
theorem preview_overflows :
    validateFollowupSchedule samplePlatform defaultFollowupSchedule = [] ∧
      resolveFollowupPreview samplePlatform defaultFollowupSchedule
        (samplePreview "9999-12-31T20:00:00+00:00" 0) = .error .overflowError ∧
      ¬Resolves samplePlatform defaultFollowupSchedule
        (samplePreview "9999-12-31T20:00:00+00:00" 0) := by
  have hover : resolveFollowupPreview samplePlatform defaultFollowupSchedule
      (samplePreview "9999-12-31T20:00:00+00:00" 0) = .error .overflowError := by decide
  have hread : readPreview samplePlatform (samplePreview "9999-12-31T20:00:00+00:00" 0) =
      some ⟨.friend, "9999-12-31T20:00:00+00:00".toList, 253402286400000000, 0, 0⟩ := by
    decide
  refine ⟨default_accepted, hover, fun hresolves => ?_⟩
  unfold Resolves at hresolves
  rw [hread] at hresolves
  obtain ⟨r, hr, -⟩ := hresolves
  rw [hover] at hr
  simp at hr

end CompanionBackend.FollowupSchedules
