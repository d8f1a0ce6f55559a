/-
How far the account of one server depends on the others. Two runs look alike to a server if their
passes are made at the same moments, with the sink open or closed in both, and find the server with the
same counters. Its records need not be the same then. While the sink is closed a pass fails if it has
records to offer, be it of other servers only, and a failed pass takes no note of a server that it meets
for the first time or whose counters have started from zero. This is the only way in which others
matter: where such passes have something to offer in both runs or in neither, the server's baselines
and records are the same.
-/
import FleetRoster.Proofs.Meter.Ledger

namespace FleetRoster

namespace Metering

/-! ## Passes as they come up in a run -/

/-- A pass about to be made, and what it is made in. -/
structure Occasion where
  now : UInt64
  state : Metering

/-- The passes that come up when the moves are made. -/
def occasions (s : Metering) : List Move → List Occasion
  | [] => []
  | .pass now :: moves => ⟨now, s⟩ :: (s.move (.pass now)).occasions moves
  | m :: moves => (s.move m).occasions moves

namespace Occasion

/-- The counters the pass finds for a server, if the server is there. -/
def counters? (o : Occasion) (id : UInt64) : Option Counters := (o.state.servers.get? id).map (·.counters)

/-- The records the pass has to offer. -/
def batch (o : Occasion) : List Usage := o.state.meter.batch o.state.servers.toList (hourOf o.now)

/-- What the pass leaves. -/
def next (o : Occasion) : Metering := o.state.move (.pass o.now)

/-- The pass meets the server for the first time, or finds that its counters have started from zero and
counted nothing since. -/
def Unsettled (o : Occasion) (id : UInt64) : Prop :=
  ∃ server, o.state.servers.get? id = some server ∧
    (o.state.meter.finding id server = .newcomer ∨ o.state.meter.finding id server = .restarted)

instance (o : Occasion) (id : UInt64) : Decidable (o.Unsettled id) :=
  decidable_of_iff ((o.state.servers.get? id).any fun server =>
      o.state.meter.finding id server = .newcomer ∨ o.state.meter.finding id server = .restarted)
    (by unfold Unsettled; cases o.state.servers.get? id <;> simp)

end Occasion

variable {id : UInt64}

/-- The passes are the same for the server: made at the same moment, with the sink open or closed in both
cases, and finding it with the same counters or not at all. -/
structure Alike (id : UInt64) (a b : Occasion) : Prop where
  now : a.now = b.now
  closed : a.state.sink.closed = b.state.sink.closed
  counters : a.counters? id = b.counters? id

instance (id : UInt64) (a b : Occasion) : Decidable (Alike id a b) :=
  decidable_of_iff (a.now = b.now ∧ a.state.sink.closed = b.state.sink.closed ∧ a.counters? id = b.counters? id)
    ⟨fun ⟨hnow, hclosed, hcounters⟩ => ⟨hnow, hclosed, hcounters⟩, fun h => ⟨h.now, h.closed, h.counters⟩⟩

/-- If the sink is closed and the server unsettled, both passes have records to offer or neither has. -/
def SharesFate (id : UInt64) (a b : Occasion) : Prop :=
  a.state.sink.closed = true → a.Unsettled id → (a.batch = [] ↔ b.batch = [])

instance (id : UInt64) (a b : Occasion) : Decidable (SharesFate id a b) :=
  inferInstanceAs (Decidable (_ → _ → _))

/-- The passes leave the same baseline of the server. -/
def SameBaseline (id : UInt64) (a b : Occasion) : Prop :=
  a.next.meter.baselines[id]? = b.next.meter.baselines[id]?

/-! ## What one pass leaves -/

namespace Occasion

theorem next_eq {o : Occasion} {result : Except Fault Nat} {meter : Meter} {sink : MemorySink}
    (h : o.state.meter.pass o.state.servers.toList o.state.sink o.now = (result, meter, sink)) :
    o.next.meter = meter ∧ o.next.sink = sink := by
  have hrecord : o.state.meter.record o.state.servers o.state.sink o.now = (result, meter, sink) := h
  simp only [next, move, hrecord, and_self]

/-- A pass goes through if the sink is open or there is nothing to offer. -/
theorem next_of_through {o : Occasion} (h : o.state.sink.closed = false ∨ o.batch = []) (id : UInt64) :
    o.next.meter.baselines[id]? = o.counters? id ∧ o.next.sink.records = o.state.sink.records ++ o.batch := by
  have hlist := enumerates_toList o.state.servers.toContents
  rcases o.state.meter.pass_cases o.state.servers.toList o.state.sink o.now with
    ⟨hnone, hpass⟩ | ⟨hsome, ⟨later, hoffer, hpass⟩ | ⟨e, later, hoffer, hpass⟩⟩
  · obtain ⟨hmeter, hsink⟩ := next_eq hpass
    have hbatch : o.batch = [] := hnone
    rw [hmeter, hsink, hbatch, List.append_nil]
    exact ⟨o.state.meter.getElem?_caughtUp hlist id, rfl⟩
  · obtain ⟨hmeter, hsink⟩ := next_eq hpass
    rw [hmeter, hsink]
    exact ⟨o.state.meter.getElem?_caughtUp hlist id, KeepingSink.accepted hoffer⟩
  · have hopen : o.state.sink.closed = false := h.resolve_right hsome
    simp only [Sink.offer, hopen, Bool.false_eq_true, if_false] at hoffer
    cases hoffer

/-- A closed sink refuses whatever a pass has to offer. -/
theorem next_of_refused {o : Occasion} (hclosed : o.state.sink.closed = true) (hoffer : o.batch ≠ []) (id : UInt64) :
    o.next.meter.baselines[id]? = (if (o.counters? id).isSome then o.state.meter.baselines[id]? else none) ∧
      o.next.sink.records = o.state.sink.records := by
  have hlist := enumerates_toList o.state.servers.toContents
  rcases o.state.meter.pass_cases o.state.servers.toList o.state.sink o.now with
    ⟨hnone, -⟩ | ⟨-, ⟨later, haccept, -⟩ | ⟨e, later, hrefuse, hpass⟩⟩
  · exact absurd hnone hoffer
  · simp only [Sink.offer, hclosed, if_true] at haccept
    cases haccept
  · obtain ⟨hmeter, hsink⟩ := next_eq hpass
    rw [hmeter, hsink]
    unfold counters?
    rw [Option.isSome_map]
    exact ⟨o.state.meter.getElem?_retain hlist id, KeepingSink.refused hrefuse⟩

/-- The records a pass has for a server rest on the server's baseline and counters alone. -/
theorem filter_batch (o : Occasion) (id : UInt64) :
    o.batch.filter (·.server = id) = ((o.counters? id).bind fun counters =>
      (Finding.of o.state.meter.baselines[id]? counters).record? id (hourOf o.now)).toList := by
  unfold batch
  rw [o.state.meter.filter_batch (enumerates_toList o.state.servers.toContents)]
  unfold counters? Meter.due?
  rw [Option.bind_map]
  rfl

theorem unsettled_iff {o : Occasion} {counters : Counters} (h : o.counters? id = some counters) :
    o.Unsettled id ↔ Finding.of o.state.meter.baselines[id]? counters = .newcomer ∨
      Finding.of o.state.meter.baselines[id]? counters = .restarted := by
  obtain ⟨server, hserver, rfl⟩ := Option.map_eq_some_iff.1 h
  constructor
  · rintro ⟨_, hserver', hfinding⟩
    rw [hserver] at hserver'; cases hserver'
    exact hfinding
  · intro hfinding; exact ⟨server, hserver, hfinding⟩

theorem not_unsettled {o : Occasion} (h : o.counters? id = none) : ¬ o.Unsettled id := by
  rintro ⟨server, hserver, -⟩
  unfold counters? at h
  rw [hserver] at h; cases h

/-- A server that has been used has a record among those to be offered. -/
theorem batch_ne_nil_of_used {o : Occasion} {counters : Counters} {inbound outbound : UInt64}
    (h : o.counters? id = some counters)
    (hused : Finding.of o.state.meter.baselines[id]? counters = .used inbound outbound) : o.batch ≠ [] := by
  intro hnone
  have hfilter := o.filter_batch id
  rw [hnone, h] at hfilter
  simp [hused, Finding.record?] at hfilter

/-- While the sink is closed, a server that is there keeps its baseline if there is anything to offer. -/
theorem baseline_next_of_closed {o : Occasion} (hclosed : o.state.sink.closed = true) (id : UInt64) :
    o.next.meter.baselines[id]? =
      if o.batch = [] then o.counters? id
      else if (o.counters? id).isSome then o.state.meter.baselines[id]? else none := by
  split
  · rename_i hoffer; exact (next_of_through (.inr hoffer) id).1
  · rename_i hoffer; exact (next_of_refused hclosed hoffer id).1

/-- A closed sink is left with the records it has. -/
theorem records_next_of_closed {o : Occasion} (hclosed : o.state.sink.closed = true) :
    o.next.sink.records = o.state.sink.records := by
  by_cases hoffer : o.batch = []
  · rw [(next_of_through (.inr hoffer) 0).2, hoffer, List.append_nil]
  · exact (next_of_refused hclosed hoffer 0).2

end Occasion

/-- Where the baselines were the same, they are the same after the passes exactly if the passes share
their fate. -/
theorem Alike.sameBaseline_iff {a b : Occasion} (h : Alike id a b)
    (hbase : a.state.meter.baselines[id]? = b.state.meter.baselines[id]?) :
    SameBaseline id a b ↔ SharesFate id a b := by
  unfold SameBaseline
  cases hclosed : a.state.sink.closed with
  | false =>
    -- both go through
    have hopen : b.state.sink.closed = false := h.closed ▸ hclosed
    refine iff_of_true ?_ fun hshut => by rw [hclosed] at hshut; cases hshut
    rw [(Occasion.next_of_through (.inl hclosed) id).1, (Occasion.next_of_through (.inl hopen) id).1, h.counters]
  | true =>
    have hclosed' : b.state.sink.closed = true := h.closed ▸ hclosed
    rw [Occasion.baseline_next_of_closed hclosed, Occasion.baseline_next_of_closed hclosed', ← hbase, ← h.counters]
    cases hc : a.counters? id with
    | none => exact iff_of_true (by simp) fun _ hunsettled => absurd hunsettled (Occasion.not_unsettled hc)
    | some counters =>
      unfold SharesFate
      rw [Occasion.unsettled_iff hc, Option.isSome_some, if_pos rfl]
      cases hfinding : Finding.of a.state.meter.baselines[id]? counters with
      | idle =>
        -- kept or moved on to, the baseline is the counters
        rw [Finding.of_eq_idle_iff.1 hfinding]
        exact iff_of_true (by simp) (by simp)
      | used inbound outbound =>
        have hc' : b.counters? id = some counters := h.counters ▸ hc
        have hfinding' : Finding.of b.state.meter.baselines[id]? counters = .used inbound outbound := hbase ▸ hfinding
        rw [if_neg (Occasion.batch_ne_nil_of_used hc hfinding), if_neg (Occasion.batch_ne_nil_of_used hc' hfinding')]
        exact iff_of_true rfl (by simp)
      | newcomer | restarted =>
        have hmoved : some counters ≠ a.state.meter.baselines[id]? := by
          intro hsame
          rw [Finding.of_eq_idle_iff.2 hsame.symm] at hfinding
          cases hfinding
        by_cases ha : a.batch = [] <;> by_cases hb : b.batch = [] <;> simp [ha, hb, hclosed, hmoved, hmoved.symm]

/-- Two runs have come to the same baseline of the server and the same records for it. -/
structure Agree (id : UInt64) (s t : Metering) : Prop where
  baseline : s.meter.baselines[id]? = t.meter.baselines[id]?
  records : s.sink.records.filter (·.server = id) = t.sink.records.filter (·.server = id)

theorem Alike.agree_next {a b : Occasion} (h : Alike id a b) (hagree : Agree id a.state b.state)
    (hfate : SharesFate id a b) : Agree id a.next b.next := by
  refine ⟨(h.sameBaseline_iff hagree.baseline).2 hfate, ?_⟩
  cases hclosed : a.state.sink.closed with
  | false =>
    have hopen : b.state.sink.closed = false := h.closed ▸ hclosed
    rw [(Occasion.next_of_through (.inl hclosed) id).2, (Occasion.next_of_through (.inl hopen) id).2,
      List.filter_append, List.filter_append, hagree.records, a.filter_batch, b.filter_batch, hagree.baseline,
      h.counters, h.now]
  | true =>
    have hclosed' : b.state.sink.closed = true := h.closed ▸ hclosed
    rw [Occasion.records_next_of_closed hclosed, Occasion.records_next_of_closed hclosed']
    exact hagree.records

/-! ## Runs -/

/-- Between two passes neither the baselines nor the records change. -/
theorem occasions_cases (s : Metering) (moves : List Move) :
    (s.occasions moves = [] ∧ (s.run moves).meter = s.meter ∧ (s.run moves).sink.records = s.sink.records) ∨
    ∃ o rest, s.occasions moves = o :: o.next.occasions rest ∧ s.run moves = o.next.run rest ∧
      o.state.meter = s.meter ∧ o.state.sink.records = s.sink.records := by
  induction moves generalizing s with
  | nil => exact .inl ⟨rfl, rfl, rfl⟩
  | cons m moves ih =>
    cases m with
    | pass now => exact .inr ⟨⟨now, s⟩, moves, rfl, rfl, rfl, rfl⟩
    | write w => exact ih (s.move (.write w))
    | setClosed closed => exact ih (s.move (.setClosed closed))

/-- Through passes that are alike, runs that agree come to the same baselines exactly if the passes share
their fate, and then agree at the end. -/
theorem Agree.run {as bs : List Occasion} (halike : List.Forall₂ (Alike id) as bs) {s t : Metering}
    {moves moves' : List Move} (has : as = s.occasions moves) (hbs : bs = t.occasions moves') (h : Agree id s t) :
    (List.Forall₂ (SameBaseline id) as bs ↔ List.Forall₂ (SharesFate id) as bs) ∧
      (List.Forall₂ (SharesFate id) as bs → Agree id (s.run moves) (t.run moves')) := by
  induction halike generalizing s t moves moves' with
  | nil =>
    refine ⟨iff_of_true .nil .nil, fun _ => ?_⟩
    rcases s.occasions_cases moves with ⟨-, hmeter, hrecords⟩ | ⟨o, rest, hcons, -⟩
    · rcases t.occasions_cases moves' with ⟨-, hmeter', hrecords'⟩ | ⟨o, rest, hcons, -⟩
      · exact ⟨by rw [hmeter, hmeter', h.baseline], by rw [hrecords, hrecords', h.records]⟩
      · rw [hcons] at hbs; cases hbs
    · rw [hcons] at has; cases has
  | @cons a b as bs hab _ ih =>
    rcases s.occasions_cases moves with ⟨hnil, -⟩ | ⟨o, rest, hcons, hrun, hmeter, hrecords⟩
    · rw [hnil] at has; cases has
    rcases t.occasions_cases moves' with ⟨hnil, -⟩ | ⟨o', rest', hcons', hrun', hmeter', hrecords'⟩
    · rw [hnil] at hbs; cases hbs
    rw [hcons] at has; cases has
    rw [hcons'] at hbs; cases hbs
    have hagree : Agree id a.state b.state :=
      ⟨by rw [hmeter, hmeter', h.baseline], by rw [hrecords, hrecords', h.records]⟩
    have hhead := hab.sameBaseline_iff hagree.baseline
    rw [List.forall₂_cons, List.forall₂_cons, hrun, hrun', ← hhead]
    refine ⟨and_congr_right fun hsame => ?_, fun hfates => ?_⟩
    · exact (ih rfl rfl (hab.agree_next hagree (hhead.1 hsame))).1
    · exact (ih rfl rfl (hab.agree_next hagree (hhead.1 hfates.1))).2 hfates.2

/-- Take two runs whose passes are alike for a server, whatever else happens in them. The server has the
same baseline after every pass of both exactly if the passes share their fate; and if they do, the sink
ends up with the same records for the server. -/
theorem records_eq_of_alike {servers servers' : ServerRoster} {moves moves' : List Move} {id : UInt64}
    (h : List.Forall₂ (Alike id) (occasions { servers } moves) (occasions { servers := servers' } moves')) :
    (List.Forall₂ (SameBaseline id) (occasions { servers } moves) (occasions { servers := servers' } moves') ↔
      List.Forall₂ (SharesFate id) (occasions { servers } moves) (occasions { servers := servers' } moves')) ∧
    (List.Forall₂ (SharesFate id) (occasions { servers } moves) (occasions { servers := servers' } moves') →
      (run { servers } moves).sink.records.filter (·.server = id) =
        (run { servers := servers' } moves').sink.records.filter (·.server = id)) := by
  have hstart : Agree id { servers } { servers := servers' } := ⟨rfl, rfl⟩
  obtain ⟨hbaselines, hend⟩ := hstart.run h rfl rfl
  exact ⟨hbaselines, fun hfates => (hend hfates).records⟩

/-- A server comes up while the sink is closed, once beside a server that has been used and once beside
another that has been used otherwise. -/
theorem records_eq_of_sighting_beside_others :
    let sighting : List Move :=
      [.write (.put { id := 1 }), .setClosed true, .pass 3600, .setClosed false,
        .write (.put { id := 1, counters := ⟨30, 0⟩ }), .pass 7200, .write (.put { id := 1, counters := ⟨40, 7⟩ }),
        .pass 9000]
    let moves : List Move := .pass 0 :: .write (.put { id := 2, counters := ⟨5, 0⟩ }) :: sighting
    let moves' : List Move := .pass 0 :: .write (.put { id := 3, counters := ⟨9, 8⟩ }) :: sighting
    let servers : ServerRoster := .ofList [{ id := 2 }]
    let servers' : ServerRoster := .ofList [{ id := 3, counters := ⟨4, 4⟩ }, { id := 4 }]
    List.Forall₂ (Alike 1) (occasions { servers } moves) (occasions { servers := servers' } moves') ∧
      List.Forall₂ (SharesFate 1) (occasions { servers } moves) (occasions { servers := servers' } moves') ∧
      List.Forall₂ (SameBaseline 1) (occasions { servers } moves) (occasions { servers := servers' } moves') ∧
      (run { servers } moves).sink.records.filter (·.server = 1) =
        (run { servers := servers' } moves').sink.records.filter (·.server = 1) := by
  intro sighting moves moves' servers servers'
  have halike : List.Forall₂ (Alike 1) (occasions { servers } moves) (occasions { servers := servers' } moves') := by
    decide +kernel
  have hfates : List.Forall₂ (SharesFate 1) (occasions { servers } moves)
      (occasions { servers := servers' } moves') := by
    decide +kernel
  obtain ⟨hbaselines, hrecords⟩ := records_eq_of_alike halike
  exact ⟨halike, hfates, hbaselines.2 hfates, hrecords hfates⟩

/-- A server comes up, and one has its counters started from zero, while the sink is closed. By itself it is
taken note of; beside a server that has been used in the meantime it is not, and what it does until the next
pass is lost, or counted from where its counters stood before. -/
theorem records_differ_beside_used_server :
    let used : Move := .write (.put { id := 2, counters := ⟨5, 0⟩ })
    let outage (found later : Counters) : List Move :=
      [.write (.put { id := 1, counters := found }), .setClosed true, .pass 3600, .setClosed false,
        .write (.put { id := 1, counters := later }), .pass 7200]
    let server : Server := { id := 1, counters := ⟨1000, 1000⟩ }
    (let alone : Metering := { servers := .ofList [] }
     let beside : Metering := { servers := .ofList [{ id := 2 }] }
     let moves := outage {} ⟨30, 0⟩
     List.Forall₂ (Alike 1) (alone.occasions (.pass 0 :: moves)) (beside.occasions (.pass 0 :: used :: moves)) ∧
      (alone.run (.pass 0 :: moves)).sink.records.filter (·.server = 1) = [⟨1, 30, 0, 7200⟩] ∧
      (beside.run (.pass 0 :: used :: moves)).sink.records.filter (·.server = 1) = []) ∧
    (let alone : Metering := { servers := .ofList [server] }
     let beside : Metering := { servers := .ofList [server, { id := 2 }] }
     let moves := outage {} ⟨1500, 0⟩
     List.Forall₂ (Alike 1) (alone.occasions (.pass 0 :: moves)) (beside.occasions (.pass 0 :: used :: moves)) ∧
      (alone.run (.pass 0 :: moves)).sink.records.filter (·.server = 1) = [⟨1, 1500, 0, 7200⟩] ∧
      (beside.run (.pass 0 :: used :: moves)).sink.records.filter (·.server = 1) = [⟨1, 500, 0, 7200⟩]) := by
  intro used outage server
  decide +kernel

end Metering

end FleetRoster
