/-
Metering over a whole run, in which servers are written, the sink is closed and reopened, and
passes are made at any time. For each server the sink ends up with the records that the passes owe
and no others: a good pass owes what has been counted since the last good pass before it, if the
server was there at every pass in between.
-/
import FleetRoster.Proofs.Meter.Pass

namespace FleetRoster

namespace Metering

/-! ## Runs -/

/-- A pass that was made: when, over which servers, and whether it went through. -/
structure Pass where
  now : UInt64
  servers : ServerRoster
  good : Bool

/-- The counters a pass has found for a server, if the server was there. -/
def Pass.counters? (p : Pass) (id : UInt64) : Option Counters := (p.servers.get? id).map (·.counters)

/-- What can happen while servers are metered. -/
inductive Move where
  | write (w : Write Server UInt64)
  | setClosed (closed : Bool)
  | pass (now : UInt64)

end Metering

/-- Servers that are metered, with the passes made so far. -/
structure Metering where
  servers : ServerRoster
  meter : Meter := {}
  sink : MemorySink := {}
  passes : List Metering.Pass := []

namespace Metering

def move (s : Metering) : Move → Metering
  | .write w => { s with servers := s.servers.write w }
  | .setClosed closed => { s with sink := { s.sink with closed } }
  | .pass now =>
    let (result, meter, sink) := s.meter.record s.servers s.sink now
    { s with meter, sink, passes := s.passes ++ [⟨now, s.servers, result.isOk⟩] }

def run (s : Metering) (moves : List Move) : Metering := moves.foldl move s

/-- A pass either goes through, and the meter catches up and the sink has its records; or it fails,
and the meter forgets the servers that are gone. -/
theorem move_pass (s : Metering) (now : UInt64) :
    ∃ good meter sink,
      s.move (.pass now) = { s with meter, sink, passes := s.passes ++ [⟨now, s.servers, good⟩] } ∧
      ((good = true ∧ (∀ id, meter.baselines[id]? = (s.servers.get? id).map (·.counters)) ∧
          sink.records = s.sink.records ++ s.meter.batch s.servers.toList (hourOf now)) ∨
        (good = false ∧ sink.records = s.sink.records ∧
          ∀ id, meter.baselines[id]? =
            if (s.servers.get? id).isSome then s.meter.baselines[id]? else none)) := by
  obtain ⟨result, meter, sink, h, houtcome⟩ := s.meter.record_cases s.servers s.sink now
  refine ⟨result.isOk, meter, sink, ?_, houtcome⟩
  simp only [move, h]

/-! ## What passes owe -/

section

variable (passes : List Pass) (id : UInt64)

def Good (t : Nat) : Prop := ∃ p, passes[t]? = some p ∧ p.good = true

/-- Pass `t` found the server with these counters. -/
def Found (t : Nat) (counters : Counters) : Prop := ∃ p, passes[t]? = some p ∧ p.counters? id = some counters

/-- Pass `s` is the one that usage is counted from at `t`: the last good pass before it, with the
server there from then on. -/
structure Reference (s t : Nat) : Prop where
  before : s < t
  good : Good passes s
  stretch : ∀ r, s ≤ r → r < t → ∃ counters, Found passes id r counters
  latest : ∀ r, s < r → r < t → ¬ Good passes r

/-- Pass `t` is good, found the server, and owes this record of what was transferred since the
reference pass. A counter that stands below where it stood was started from zero. -/
def Owed (t : Nat) (usage : Usage) : Prop :=
  ∃ s p base current, Reference passes id s t ∧ Found passes id s base ∧
    passes[t]? = some p ∧ p.good = true ∧ p.counters? id = some current ∧
    ¬ (usage.inbound = 0 ∧ usage.outbound = 0) ∧
    usage = { server := id, hour := p.now - p.now % 3600
              inbound :=
                if base.inbound ≤ current.inbound then current.inbound - base.inbound else current.inbound
              outbound :=
                if base.outbound ≤ current.outbound then current.outbound - base.outbound else current.outbound }

/-- The records are those that are owed, in the order of the passes, each once. -/
def Ledger (records : List Usage) : Prop :=
  ∃ times : List Nat, times.Pairwise (· < ·) ∧ (∀ t, t ∈ times ↔ ∃ usage, Owed passes id t usage) ∧
    List.Forall₂ (Owed passes id) times records

/-- The counters at the pass that usage will be counted from at the next one. -/
def Standing (base : Counters) : Prop :=
  ∃ s, Reference passes id s passes.length ∧ Found passes id s base

end

variable {passes : List Pass} {id : UInt64}

theorem Found.unique {t : Nat} {c d : Counters} (hc : Found passes id t c) (hd : Found passes id t d) : c = d := by
  obtain ⟨p, hp, hc⟩ := hc
  obtain ⟨q, hq, hd⟩ := hd
  rw [hp] at hq; cases hq
  rw [hc] at hd; cases hd
  rfl

theorem Reference.unique {s r t : Nat} (hs : Reference passes id s t) (hr : Reference passes id r t) : s = r := by
  rcases Nat.lt_trichotomy s r with h | h | h
  · exact absurd hr.good (hs.latest r h hr.before)
  · exact h
  · exact absurd hs.good (hr.latest s h hs.before)

/-- A pass owes at most one record for a server. -/
theorem Owed.unique {t : Nat} {u v : Usage} (hu : Owed passes id t u) (hv : Owed passes id t v) : u = v := by
  obtain ⟨s, p, base, current, hs, hbase, hp, -, hcurrent, -, rfl⟩ := hu
  obtain ⟨r, q, base', current', hr, hbase', hq, -, hcurrent', -, rfl⟩ := hv
  obtain rfl := hs.unique hr
  obtain rfl := hbase.unique hbase'
  rw [hp] at hq; cases hq
  rw [hcurrent] at hcurrent'; cases hcurrent'
  rfl

/-- There is one ledger of the passes. -/
theorem Ledger.unique {records others : List Usage} (h : Ledger passes id records) (h' : Ledger passes id others) :
    records = others := by
  obtain ⟨times, hsorted, htimes, howed⟩ := h
  obtain ⟨times', hsorted', htimes', howed'⟩ := h'
  obtain rfl : times = times' := by
    refine hsorted.eq_of_mem_iff hsorted' fun t => ?_
    rw [htimes, htimes']
  have hright : Relator.RightUnique (Owed passes id) := fun _ _ _ hu hv => hu.unique hv
  exact hright.forall₂ howed howed'

/-! ## One more pass -/

section

variable {p : Pass} {s t : Nat}

theorem good_concat_self : Good (passes ++ [p]) passes.length ↔ p.good = true := by
  unfold Good
  rw [List.getElem?_concat_length]
  simp

theorem found_concat_of_lt {counters : Counters} (h : t < passes.length) :
    Found (passes ++ [p]) id t counters ↔ Found passes id t counters := by
  unfold Found
  rw [List.getElem?_append_left h]

theorem found_concat_self {counters : Counters} :
    Found (passes ++ [p]) id passes.length counters ↔ p.counters? id = some counters := by
  unfold Found
  rw [List.getElem?_concat_length]
  simp

/-- The reference of `t` is found among the passes before `t`. -/
theorem Reference.congr {passes' : List Pass} (h : ∀ r < t, passes[r]? = passes'[r]?)
    (hs : Reference passes id s t) : Reference passes' id s t := by
  obtain ⟨hst, hgood, hstretch, hlatest⟩ := hs
  refine ⟨hst, ?_, fun r hsr hrt => ?_, fun r hsr hrt hr => hlatest r hsr hrt ?_⟩
  · unfold Good; rw [← h s hst]; exact hgood
  · unfold Found; rw [← h r hrt]; exact hstretch r hsr hrt
  · unfold Good; rw [h r hrt]; exact hr

theorem reference_concat_of_le (h : t ≤ passes.length) :
    Reference (passes ++ [p]) id s t ↔ Reference passes id s t := by
  have hold : ∀ r < t, (passes ++ [p])[r]? = passes[r]? := fun r hr =>
    List.getElem?_append_left (by omega)
  exact ⟨Reference.congr hold, Reference.congr fun r hr => (hold r hr).symm⟩

/-- A good pass becomes the reference of the next one; after a failed one the reference is as
before, if the server is there. -/
theorem reference_concat_succ :
    Reference (passes ++ [p]) id s (passes.length + 1) ↔
      (∃ counters, p.counters? id = some counters) ∧
        (p.good = true ∧ s = passes.length ∨ p.good = false ∧ Reference passes id s passes.length) := by
  constructor
  · rintro ⟨hst, hgood, hstretch, hlatest⟩
    obtain ⟨counters, hc⟩ := hstretch passes.length (by omega) (by omega)
    refine ⟨⟨counters, found_concat_self.1 hc⟩, ?_⟩
    by_cases hs : s = passes.length
    · subst hs
      exact .inl ⟨good_concat_self.1 hgood, rfl⟩
    · have hlt : s < passes.length := by omega
      refine .inr ⟨?_, (reference_concat_of_le (Nat.le_refl _)).1
        ⟨hlt, hgood, fun r hsr hrt => hstretch r hsr (by omega), fun r hsr hrt => hlatest r hsr (by omega)⟩⟩
      rw [← Bool.not_eq_true]
      intro hp
      exact hlatest passes.length hlt (by omega) (good_concat_self.2 hp)
  · rintro ⟨⟨counters, hc⟩, ⟨hp, rfl⟩ | ⟨hp, href⟩⟩
    · refine ⟨by omega, good_concat_self.2 hp, fun r hsr hrt => ?_, fun r hsr hrt => by omega⟩
      obtain rfl : r = passes.length := by omega
      exact ⟨counters, found_concat_self.2 hc⟩
    · obtain ⟨hst, hgood, hstretch, hlatest⟩ := (reference_concat_of_le (Nat.le_refl _)).2 href
      refine ⟨by omega, hgood, fun r hsr hrt => ?_, fun r hsr hrt hr => ?_⟩
      · by_cases hr : r = passes.length
        · subst hr; exact ⟨counters, found_concat_self.2 hc⟩
        · exact hstretch r hsr (by omega)
      · by_cases hr' : r = passes.length
        · subst hr'
          rw [good_concat_self, hp] at hr; cases hr
        · exact hlatest r hsr (by omega) hr

theorem standing_concat {base : Counters} :
    Standing (passes ++ [p]) id base ↔
      p.good = true ∧ p.counters? id = some base ∨
      p.good = false ∧ (∃ counters, p.counters? id = some counters) ∧ Standing passes id base := by
  unfold Standing
  rw [List.length_append, List.length_singleton]
  simp only [reference_concat_succ]
  constructor
  · rintro ⟨s, ⟨hc, ⟨hp, rfl⟩ | ⟨hp, href⟩⟩, hbase⟩
    · exact .inl ⟨hp, found_concat_self.1 hbase⟩
    · exact .inr ⟨hp, hc, s, href, (found_concat_of_lt href.before).1 hbase⟩
  · rintro (⟨hp, hbase⟩ | ⟨hp, hc, s, href, hbase⟩)
    · exact ⟨passes.length, ⟨⟨base, hbase⟩, .inl ⟨hp, rfl⟩⟩, found_concat_self.2 hbase⟩
    · exact ⟨s, ⟨hc, .inr ⟨hp, href⟩⟩, (found_concat_of_lt href.before).2 hbase⟩

theorem Owed.lt_length {usage : Usage} (h : Owed passes id t usage) : t < passes.length := by
  obtain ⟨s, q, base, current, -, -, hq, -⟩ := h
  exact (List.getElem?_eq_some_iff.1 hq).1

theorem owed_concat_of_lt {usage : Usage} (h : t < passes.length) :
    Owed (passes ++ [p]) id t usage ↔ Owed passes id t usage := by
  unfold Owed
  rw [List.getElem?_append_left h]
  simp only [reference_concat_of_le (Nat.le_of_lt h)]
  refine exists_congr fun s => exists_congr fun q => exists_congr fun base => exists_congr fun current => ?_
  refine and_congr_right fun href => ?_
  rw [found_concat_of_lt (Nat.lt_trans href.before h)]

/-- What the last pass owes depends on the passes before it only through where they stand, and it is what
the meter counts. -/
theorem owed_concat_self {usage : Usage} :
    Owed (passes ++ [p]) id passes.length usage ↔
      p.good = true ∧ ∃ base current, Standing passes id base ∧ p.counters? id = some current ∧
        ¬ (usage.inbound = 0 ∧ usage.outbound = 0) ∧
        usage = { server := id, hour := hourOf p.now
                  inbound := counted base.inbound current.inbound
                  outbound := counted base.outbound current.outbound } := by
  unfold Owed Standing
  simp only [List.getElem?_concat_length, reference_concat_of_le (Nat.le_refl passes.length)]
  constructor
  · rintro ⟨s, q, base, current, href, hbase, hq, hgood, hcurrent, husage⟩
    cases hq
    exact ⟨hgood, base, current, ⟨s, href, (found_concat_of_lt href.before).1 hbase⟩, hcurrent, husage⟩
  · rintro ⟨hgood, base, current, ⟨s, href, hbase⟩, hcurrent, husage⟩
    exact ⟨s, p, base, current, href, (found_concat_of_lt href.before).2 hbase, rfl, hgood, hcurrent, husage⟩

/-- A ledger goes on with what the next pass owes. -/
theorem Ledger.concat {records : List Usage} (h : Ledger passes id records) (due? : Option Usage)
    (hdue : ∀ usage, Owed (passes ++ [p]) id passes.length usage ↔ due? = some usage) :
    Ledger (passes ++ [p]) id (records ++ due?.toList) := by
  obtain ⟨times, hsorted, htimes, howed⟩ := h
  have hpast : ∀ t ∈ times, t < passes.length := by
    intro t ht
    obtain ⟨usage, h⟩ := (htimes t).1 ht
    exact h.lt_length
  have hlt : ∀ {t usage}, Owed (passes ++ [p]) id t usage → t < passes.length ∨ t = passes.length := by
    intro t usage h
    have := h.lt_length
    rw [List.length_append, List.length_singleton] at this
    omega
  have hkept : List.Forall₂ (Owed (passes ++ [p]) id) times records := by
    refine howed.imp ?_
    intro t usage h
    exact (owed_concat_of_lt h.lt_length).2 h
  cases due? with
  | none =>
    refine ⟨times, hsorted, fun t => ?_, by simpa using hkept⟩
    rw [htimes]
    constructor
    · rintro ⟨usage, h⟩; exact ⟨usage, (owed_concat_of_lt h.lt_length).2 h⟩
    · rintro ⟨usage, h⟩
      rcases hlt h with ht | rfl
      · exact ⟨usage, (owed_concat_of_lt ht).1 h⟩
      · -- the new pass owes nothing
        cases (hdue usage).1 h
  | some last =>
    have hlast : Owed (passes ++ [p]) id passes.length last := (hdue last).2 rfl
    refine ⟨times ++ [passes.length], ?_, fun t => ?_, List.rel_append hkept (.cons hlast .nil)⟩
    · refine List.pairwise_append.2 ⟨hsorted, List.pairwise_singleton _ _, fun t ht r hr => ?_⟩
      rw [List.mem_singleton.1 hr]
      exact hpast t ht
    · rw [List.mem_append, List.mem_singleton, htimes]
      constructor
      · rintro (⟨usage, h⟩ | rfl)
        · exact ⟨usage, (owed_concat_of_lt h.lt_length).2 h⟩
        · exact ⟨last, hlast⟩
      · rintro ⟨usage, h⟩
        rcases hlt h with ht | rfl
        · exact .inl ⟨usage, (owed_concat_of_lt ht).1 h⟩
        · exact .inr rfl

end

/-! ## The meter keeps to the ledger -/

/-- The meter knows the counters that usage is counted from next, and the sink has what was owed. -/
structure Balanced (s : Metering) (id : UInt64) : Prop where
  baseline : ∀ base, s.meter.baselines[id]? = some base ↔ Standing s.passes id base
  ledger : Ledger s.passes id (s.sink.records.filter (·.server = id))

theorem balanced_start (servers : ServerRoster) (id : UInt64) : Balanced { servers } id where
  baseline base := by
    refine iff_of_false ?_ ?_
    · rw [show ({} : Meter).baselines[id]? = none from Std.ExtTreeMap.getElem?_empty]
      intro h; cases h
    · rintro ⟨s, href, -⟩
      exact absurd href.before (Nat.not_lt_zero s)
  ledger := by
    refine ⟨[], List.Pairwise.nil, fun t => ?_, .nil⟩
    refine iff_of_false (List.not_mem_nil) ?_
    rintro ⟨usage, h⟩
    exact absurd h.lt_length (Nat.not_lt_zero t)

/-- What a good pass owes is the record that the meter makes. -/
theorem Balanced.owed_iff {s : Metering} {id : UInt64} (hs : s.Balanced id) (now : UInt64) (usage : Usage) :
    Owed (s.passes ++ [⟨now, s.servers, true⟩]) id s.passes.length usage ↔
      s.meter.due? (s.servers.get? id) id (hourOf now) = some usage := by
  rw [owed_concat_self, Meter.due?_eq_some_iff]
  simp only [true_and, ← hs.baseline, Pass.counters?, Option.map_eq_some_iff]
  constructor
  · rintro ⟨base, _, hbase, ⟨server, hserver, rfl⟩, husage⟩
    exact ⟨server, base, hserver, hbase, husage⟩
  · rintro ⟨server, base, hserver, hbase, husage⟩
    exact ⟨base, server.counters, hbase, ⟨server, hserver, rfl⟩, husage⟩

theorem Balanced.move {s : Metering} {id : UInt64} (hs : s.Balanced id) (m : Move) : (s.move m).Balanced id := by
  cases m with
  | write w => exact ⟨hs.baseline, hs.ledger⟩
  | setClosed closed => exact ⟨hs.baseline, hs.ledger⟩
  | pass now =>
    obtain ⟨good, meter, sink, hmove, ⟨rfl, hmeter, hsink⟩ | ⟨rfl, hsink, hmeter⟩⟩ := s.move_pass now
    · rw [hmove]
      refine ⟨fun base => ?_, ?_⟩
      · rw [hmeter, standing_concat]
        simp [Pass.counters?]
      · show Ledger _ id (sink.records.filter _)
        rw [hsink, List.filter_append, s.meter.filter_batch (enumerates_toList s.servers.toContents)]
        exact hs.ledger.concat _ (hs.owed_iff now)
    · rw [hmove]
      refine ⟨fun base => ?_, ?_⟩
      · rw [hmeter, standing_concat]
        -- a failed pass moves no baseline, and drops that of a server that is gone
        cases hserver : s.servers.get? id with
        | none => simp [Pass.counters?, hserver]
        | some server => simp [Pass.counters?, hserver, hs.baseline]
      · show Ledger _ id (sink.records.filter _)
        rw [hsink, ← List.append_nil (s.sink.records.filter _)]
        refine hs.ledger.concat none fun usage => ?_
        rw [owed_concat_self]
        simp

theorem Balanced.run {s : Metering} {id : UInt64} (hs : s.Balanced id) (moves : List Move) :
    (s.run moves).Balanced id := by
  induction moves generalizing s with
  | nil => exact hs
  | cons m moves ih => exact ih (hs.move m)

/-- Whatever happens, the records that the sink has of a server are those that the passes owed: they are a
ledger of the passes, and the only one there is. -/
theorem ledger_of_run (servers : ServerRoster) (moves : List Move) (id : UInt64) (records : List Usage) :
    Ledger (run { servers } moves).passes id records ↔
      records = (run { servers } moves).sink.records.filter (·.server = id) := by
  have hledger := ((balanced_start servers id).run moves).ledger
  constructor
  · intro h
    exact h.unique hledger
  · rintro rfl
    exact hledger

/-- What a closed sink has refused is made up for by the next good pass. -/
example : (run { servers := .ofList [{ id := 1 }] }
    [.pass 0, .write (.put { id := 1, counters := ⟨30, 0⟩ }), .setClosed true, .pass 3600,
      .setClosed false, .pass 7265]).sink.records = [⟨1, 30, 0, 7200⟩] := by decide +kernel

end Metering

end FleetRoster
