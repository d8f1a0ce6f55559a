/-
Waiting. While nobody writes, one pass finds out all that there is: a second one over the same servers
reports nothing if the first went through, and is refused as the first was if it was refused. So however
many passes fall due in a wait, it comes to a single one, made when the first of them is due, and waiting
twice comes to waiting for both times at once.
-/
import FleetRoster.Proofs.Meter.Passes

namespace FleetRoster

open Std (ExtTreeMap)

/-! ## When passes are due -/

namespace Schedule

/-- Passes are due at the multiples of the period: those after `elapsed`, up to `seconds` later. -/
theorem mem_ticks_iff {period : Nat} (hperiod : 0 < period) {elapsed seconds tick : Nat} :
    tick ∈ ticks period elapsed seconds ↔ period ∣ tick ∧ elapsed < tick ∧ tick ≤ elapsed + seconds := by
  unfold ticks
  rw [List.mem_map]
  constructor
  · rintro ⟨i, hi, rfl⟩
    rw [List.mem_range] at hi
    refine ⟨Nat.dvd_mul_left .., (Nat.div_lt_iff_lt_mul hperiod).1 (by omega), ?_⟩
    exact (Nat.le_div_iff_mul_le hperiod).1 (by omega)
  · rintro ⟨⟨m, rfl⟩, hafter, hwithin⟩
    rw [Nat.mul_comm] at hafter hwithin ⊢
    have hlow := (Nat.div_lt_iff_lt_mul hperiod).2 hafter
    have hhigh := (Nat.le_div_iff_mul_le hperiod).2 hwithin
    refine ⟨m - elapsed / period - 1, List.mem_range.2 (by omega), ?_⟩
    congr 1
    omega

theorem pairwise_ticks {period : Nat} (hperiod : 0 < period) (elapsed seconds : Nat) :
    (ticks period elapsed seconds).Pairwise (· < ·) := by
  unfold ticks
  rw [List.pairwise_map]
  refine List.pairwise_lt_range.imp fun hlt => ?_
  exact Nat.mul_lt_mul_of_pos_right (by omega) hperiod

/-- The first pass that is due is the least of them. -/
theorem ticks_of_isLeast {period : Nat} (hperiod : 0 < period) {elapsed seconds tick : Nat}
    (h : IsLeast {t | period ∣ t ∧ elapsed < t ∧ t ≤ elapsed + seconds} tick) :
    ∃ rest, ticks period elapsed seconds = tick :: rest := by
  have hmem : tick ∈ ticks period elapsed seconds := (mem_ticks_iff hperiod).2 h.1
  have hsorted := pairwise_ticks hperiod elapsed seconds
  cases hticks : ticks period elapsed seconds with
  | nil => rw [hticks] at hmem; cases hmem
  | cons first rest =>
    have hfirst : tick ≤ first := h.2 ((mem_ticks_iff hperiod).1 (by rw [hticks]; exact List.mem_cons_self ..))
    rw [hticks] at hmem hsorted
    rcases List.mem_cons.1 hmem with rfl | hlater
    · exact ⟨rest, rfl⟩
    · have := List.rel_of_pairwise_cons hsorted hlater
      omega

/-- What is due in two waits is due in the wait for both. -/
theorem ticks_add (period elapsed a b : Nat) :
    ticks period elapsed (a + b) = ticks period elapsed a ++ ticks period (elapsed + a) b := by
  have hfirst : elapsed / period ≤ (elapsed + a) / period := Nat.div_le_div_right (by omega)
  have hsecond : (elapsed + a) / period ≤ (elapsed + a + b) / period := Nat.div_le_div_right (by omega)
  have hcount : (elapsed + (a + b)) / period - elapsed / period =
      ((elapsed + a) / period - elapsed / period) + ((elapsed + a + b) / period - (elapsed + a) / period) := by
    rw [← Nat.add_assoc]
    omega
  unfold ticks
  rw [hcount, List.range_add, List.map_append, List.map_map]
  congr 1
  refine List.map_congr_left fun i _ => ?_
  show (_ + 1 + (_ + i)) * period = _
  congr 1
  omega

end Schedule

/-! ## A second pass over the same servers -/

namespace Meter

variable {servers : List (UInt64 × Server)} {lookup : UInt64 → Option Server}

theorem ext_getElem? {m n : Meter} (h : ∀ id : UInt64, m.baselines[id]? = n.baselines[id]?) : m = n :=
  Meter.ext (ExtTreeMap.ext_getElem? h)

theorem retain_retain (m : Meter) (h : Enumerates servers lookup) :
    (m.retain servers).retain servers = m.retain servers := by
  refine ext_getElem? fun id => ?_
  rw [getElem?_retain _ h, getElem?_retain _ h]
  split <;> rfl

/-- Having caught up is the same, whatever was known before. -/
theorem caughtUp_eq (m n : Meter) (h : Enumerates servers lookup) : m.caughtUp servers = n.caughtUp servers :=
  ext_getElem? fun id => by rw [getElem?_caughtUp _ h, getElem?_caughtUp _ h]

theorem batch_congr {m n : Meter} (h : ∀ id server, (id, server) ∈ servers → m.baselines[id]? = n.baselines[id]?)
    (hour : UInt64) : m.batch servers hour = n.batch servers hour := by
  refine List.filterMap_congr ?_
  rintro ⟨id, server⟩ hmem
  show (m.finding id server).record? id hour = (n.finding id server).record? id hour
  unfold finding
  rw [h id server hmem]

theorem batch_retain (m : Meter) (h : Enumerates servers lookup) (hour : UInt64) :
    (m.retain servers).batch servers hour = m.batch servers hour := by
  refine batch_congr (fun id server hmem => ?_) hour
  rw [getElem?_retain m h, (h.mem id server).1 hmem]
  rfl

/-- All servers are idle for a meter that has caught up. -/
theorem batch_caughtUp (m : Meter) (h : Enumerates servers lookup) (hour : UInt64) :
    (m.caughtUp servers).batch servers hour = [] := by
  refine List.filterMap_eq_nil_iff.2 ?_
  rintro ⟨id, server⟩ hmem
  have hidle : (m.caughtUp servers).finding id server = .idle := by
    refine Finding.of_eq_idle_iff.2 ?_
    rw [getElem?_caughtUp m h, (h.mem id server).1 hmem]
    rfl
  show ((m.caughtUp servers).finding id server).record? id hour = none
  rw [hidle]
  rfl

/-- The hour is all that a batch takes from the moment of the pass. -/
theorem batch_eq_map (m : Meter) (servers : List (UInt64 × Server)) (hour : UInt64) :
    m.batch servers hour = (m.batch servers 0).map fun usage => { usage with hour } := by
  unfold batch
  rw [List.map_filterMap]
  refine List.filterMap_congr ?_
  rintro ⟨id, server⟩ -
  show (m.finding id server).record? id hour = ((m.finding id server).record? id 0).map _
  cases m.finding id server <;> rfl

end Meter

/-- The record without its hour. -/
def Usage.row (usage : Usage) : UInt64 × UInt64 × UInt64 := (usage.server, usage.inbound, usage.outbound)

namespace Schedule

/-- A pass goes through if it has no records to offer, or they are accepted. -/
def Through (s : Schedule) : Prop := s.meter.batch s.servers.toList 0 = [] ∨ s.outlet.mode = .accepting

theorem pass_of_through {s : Schedule} (h : s.Through) (now : UInt64) :
    s.pass now =
      { s with
        meter := s.meter.caughtUp s.servers.toList
        outlet := { s.outlet with records := s.outlet.records ++ s.meter.batch s.servers.toList (hourOf now) } } := by
  unfold pass Meter.record
  rcases s.meter.pass_cases s.servers.toList s.outlet now with
    ⟨hnone, hpass⟩ | ⟨hsome, ⟨later, hoffer, hpass⟩ | ⟨e, later, hoffer, hpass⟩⟩
  · rw [hpass, hnone, List.append_nil]
  · rw [hpass]
    simp only [Sink.offer] at hoffer
    split at hoffer <;> cases hoffer
    rfl
  · rcases h with hnone | hmode
    · rw [Meter.batch_eq_map, hnone] at hsome
      exact absurd rfl hsome
    · simp only [Sink.offer, hmode] at hoffer
      cases hoffer

theorem pass_of_not_through {s : Schedule} (h : ¬ s.Through) (now : UInt64) :
    s.pass now = { s with meter := s.meter.retain s.servers.toList } := by
  obtain ⟨hsome, hmode⟩ := not_or.1 h
  unfold pass Meter.record
  rcases s.meter.pass_cases s.servers.toList s.outlet now with
    ⟨hnone, -⟩ | ⟨-, ⟨later, hoffer, -⟩ | ⟨e, later, hoffer, hpass⟩⟩
  · rw [Meter.batch_eq_map, List.map_eq_nil_iff] at hnone
    exact absurd hnone hsome
  · simp only [Sink.offer] at hoffer
    split at hoffer
    · rename_i hok; exact absurd hok hmode
    all_goals cases hoffer
  · rw [hpass]
    simp only [Sink.offer] at hoffer
    split at hoffer <;> cases hoffer
    all_goals rfl

/-- A second pass over the same servers changes nothing. -/
theorem pass_pass (s : Schedule) (now later : UInt64) : (s.pass now).pass later = s.pass now := by
  have hlist := enumerates_toList s.servers.toContents
  by_cases h : s.Through
  · have hagain : (s.pass now).Through := by
      rw [pass_of_through h]
      exact .inl (Meter.batch_caughtUp _ hlist 0)
    rw [pass_of_through hagain, pass_of_through h]
    dsimp only
    rw [Meter.batch_caughtUp _ hlist, List.append_nil, Meter.caughtUp_eq _ s.meter hlist]
  · have hagain : ¬ (s.pass now).Through := by
      rw [pass_of_not_through h]
      unfold Through
      rw [Meter.batch_retain _ hlist]
      exact h
    rw [pass_of_not_through hagain, pass_of_not_through h]
    dsimp only
    rw [Meter.retain_retain _ hlist]

/-- The hour of the records is all that a pass takes from its moment. -/
theorem pass_moment (s : Schedule) (now later : UInt64) :
    (s.pass now).meter = (s.pass later).meter ∧
      (s.pass now).outlet.records.map Usage.row = (s.pass later).outlet.records.map Usage.row := by
  by_cases h : s.Through
  · rw [pass_of_through h, pass_of_through h]
    refine ⟨rfl, ?_⟩
    dsimp only
    rw [List.map_append, List.map_append, Meter.batch_eq_map, List.map_map, Meter.batch_eq_map _ _ (hourOf later),
      List.map_map]
    rfl
  · rw [pass_of_not_through h, pass_of_not_through h]
    exact ⟨rfl, rfl⟩

/-! ## Waits -/

variable {clock : Nat → UInt64}

theorem passAll_cons (s : Schedule) (first : Nat) (rest : List Nat) :
    s.passAll clock (first :: rest) = s.pass (clock first) := by
  induction rest generalizing s first with
  | nil => rfl
  | cons second rest ih =>
    show (s.pass (clock first)).passAll clock (second :: rest) = _
    rw [ih, pass_pass]

theorem passAll_append (s : Schedule) (first second : List Nat) :
    s.passAll clock (first ++ second) = (s.passAll clock first).passAll clock second :=
  List.foldl_append ..

/-- A pass takes nothing from the time that has elapsed. -/
theorem passAll_elapsed (s : Schedule) (seconds : List Nat) (elapsed : Nat) :
    { s with elapsed }.passAll clock seconds = { s.passAll clock seconds with elapsed } := by
  induction seconds generalizing s with
  | nil => rfl
  | cons second seconds ih => exact ih (s.pass (clock second))

/-- The multiples of the period that come up in a wait. -/
def window (s : Schedule) (seconds : Nat) : Set Nat :=
  {tick | s.period ∣ tick ∧ s.elapsed < tick ∧ tick ≤ s.elapsed + seconds}

/-- Whatever falls due in a wait comes to the pass that is due first. -/
theorem wait_of_isLeast (clock : Nat → UInt64) {s : Schedule} (hrunning : s.running = true) (hperiod : 0 < s.period)
    {seconds tick : Nat} (h : IsLeast (s.window seconds) tick) :
    s.wait clock seconds = { s.pass (clock tick) with elapsed := s.elapsed + seconds } := by
  obtain ⟨rest, hticks⟩ := ticks_of_isLeast hperiod h
  have hdue : s.due (.wait seconds) = tick :: rest := (if_pos hrunning).trans hticks
  show s.step clock (.wait seconds) = _
  rw [step_eq, hdue, passAll_cons]
  rfl

theorem wait_of_empty {s : Schedule} (hrunning : s.running = true) (hperiod : 0 < s.period) {seconds : Nat}
    (h : ¬ (s.window seconds).Nonempty) : s.wait clock seconds = { s with elapsed := s.elapsed + seconds } := by
  have hticks : ticks s.period s.elapsed seconds = [] :=
    List.eq_nil_iff_forall_not_mem.2 fun tick hmem => h ⟨tick, (mem_ticks_iff hperiod).1 hmem⟩
  have hdue : s.due (.wait seconds) = [] := (if_pos hrunning).trans hticks
  show s.step clock (.wait seconds) = _
  rw [step_eq, hdue]
  rfl

/-- Waiting is additive, whether the schedule runs or not. -/
theorem wait_wait (s : Schedule) (a b : Nat) : (s.wait clock a).wait clock b = s.wait clock (a + b) := by
  have hdue : s.due (.wait (a + b)) = s.due (.wait a) ++ (s.step clock (.wait a)).due (.wait b) := by
    rw [step_eq, passAll_frame]
    unfold due
    show (if s.running then _ else _) = (if s.running then _ else _) ++ (if s.running then _ else _)
    split
    · exact ticks_add s.period s.elapsed a b
    · rfl
  have hfirst : s.step clock (.wait a) = { s.passAll clock (s.due (.wait a)) with elapsed := s.elapsed + a } := by
    rw [step_eq, passAll_frame]
    rfl
  show (s.step clock (.wait a)).step clock (.wait b) = s.step clock (.wait (a + b))
  rw [step_eq clock _ (.wait b), step_eq clock s (.wait (a + b)), hdue, passAll_append]
  generalize (s.step clock (.wait a)).due (.wait b) = later
  -- the time that elapses in the first wait makes no difference to the passes of the second
  have hkept : ((s.passAll clock (s.due (.wait a))).passAll clock later).elapsed = s.elapsed := by
    rw [passAll_frame, passAll_frame clock s]
  rw [hfirst, passAll_elapsed]
  unfold effect
  dsimp only
  rw [hkept, Nat.add_assoc]

theorem period_step (s : Schedule) (event : Event) : (s.step clock event).period = s.period := by
  rw [step_eq, passAll_frame]
  cases event <;> rfl

theorem period_run (s : Schedule) (events : List Event) : (s.run clock events).period = s.period := by
  induction events generalizing s with
  | nil => rfl
  | cons event events ih => exact (ih (s.step clock event)).trans (s.period_step event)

end Schedule

theorem Settings.period_pos (settings : Settings) : 0 < settings.period := by
  unfold period
  split
  · decide
  · rename_i hinterval
    exact Nat.pos_of_ne_zero fun hzero => hinterval (UInt64.toNat_inj.1 hzero)

namespace Schedule

/-- Metering that runs, whatever has happened to it before: its period is the interval of the settings, or an
hour if that is zero. A wait in which some pass falls due comes to one single pass, when the first is due; had
that been made at any other moment, only the hour of its records would differ. A wait in which none falls due
changes nothing but the time, and two waits come to one that is as long as both. -/
theorem wait_eq_pass (settings : Settings) (servers : ServerRoster) (clock : Nat → UInt64) (events : List Event) :
    let s := (start settings servers clock).run clock events
    s.period = (if settings.interval = 0 then 3600 else settings.interval.toNat) ∧
      (s.running = true → ∀ seconds,
        ((s.window seconds).Nonempty →
          (∃ first, IsLeast (s.window seconds) first ∧
            s.wait clock seconds = { s.pass (clock first) with elapsed := s.elapsed + seconds }) ∧
          ∀ now, (s.wait clock seconds).meter = (s.pass now).meter ∧
            (s.wait clock seconds).outlet.records.map Usage.row = (s.pass now).outlet.records.map Usage.row) ∧
        (¬ (s.window seconds).Nonempty → s.wait clock seconds = { s with elapsed := s.elapsed + seconds })) ∧
      ∀ a b, (s.wait clock a).wait clock b = s.wait clock (a + b) := by
  intro s
  have hperiod : s.period = settings.period := period_run _ events
  have hpos : 0 < s.period := by
    rw [hperiod]
    exact settings.period_pos
  refine ⟨?_, fun hrunning seconds => ⟨fun hsome => ?_, wait_of_empty hrunning hpos⟩, wait_wait s⟩
  · rw [hperiod]
    rfl
  · have hleast : IsLeast (s.window seconds) (sInf (s.window seconds)) :=
      ⟨Nat.sInf_mem hsome, fun _ => Nat.sInf_le⟩
    have hwait := wait_of_isLeast clock hrunning hpos hleast
    refine ⟨⟨_, hleast, hwait⟩, fun now => ?_⟩
    rw [hwait]
    exact s.pass_moment _ now

/-- Three passes fall due after one that broke off; the servers have changed since, and a zero interval. -/
theorem wait_eq_pass_after_breakdown :
    let settings : Settings := { interval := 0 }
    let rows : List Server := [{ id := 1, counters := ⟨10, 5⟩ }, { id := 2, counters := ⟨7, 7⟩ }]
    let clock : Nat → UInt64 := fun second => 1700000000 + UInt64.ofNat second
    let events : List Event :=
      [.write (.put { id := 1, counters := ⟨40, 5⟩ }), .setMode .breaking, .wait 5400, .write (.drop [2]),
        .write (.put { id := 3, counters := ⟨1, 1⟩ }), .setMode .accepting]
    let s := (start settings (.ofList rows) clock).run clock events
    s.running = true ∧ (s.window 9000).Nonempty ∧
      (s.wait clock 9000).outlet.records.map Usage.row = [(1, 30, 0)] ∧
      (s.wait clock 9000).meter = (s.pass 0).meter ∧
      (s.wait clock 1799).wait clock 7201 = s.wait clock 9000 := by
  intro settings rows clock events s
  have hrunning : s.running = true := by decide +kernel
  obtain ⟨hperiod, hwait, hadd⟩ := wait_eq_pass settings (.ofList rows) clock events
  have hdue : (s.window 9000).Nonempty := ⟨7200, by rw [hperiod]; decide, by decide +kernel, by decide +kernel⟩
  obtain ⟨hmeter, hrows⟩ := ((hwait hrunning 9000).1 hdue).2 0
  refine ⟨hrunning, hdue, ?_, hmeter, hadd 1799 7201⟩
  rw [hrows]
  decide +kernel

end Schedule

end FleetRoster
