/-
Nothing is reported that was not transferred. A server's counters climb with what it transfers and may
start from zero at any time, also unseen between two passes; the server may leave the roster and come
back, and passes may fail. What the records give for the server is never more than what it has
transferred since the first pass that found it. The invariant counts in what a pass right now would
report: no incident raises that by more than the bytes it transfers.
-/
import FleetRoster.Proofs.Meter.Ledger
import FleetRoster.Proofs.Roster.Writes

namespace FleetRoster

/-! ## What a counter has counted -/

theorem counted_zero (base : UInt64) : counted base 0 = 0 := by
  rw [← UInt64.toNat_inj, toNat_counted, UInt64.toNat_zero]
  split <;> omega

theorem toNat_add_of_fits {current : UInt64} {n : Nat} (h : current.toNat + n < UInt64.size) :
    (current + .ofNat n).toNat = current.toNat + n := by
  rw [UInt64.toNat_add, UInt64.toNat_ofNat', Nat.add_mod_mod]
  exact Nat.mod_eq_of_lt h

/-- Some bytes more raise what has been counted by at most as many, also where they take a counter that
had been started from zero past its base. -/
theorem toNat_counted_add_le (base : UInt64) {current : UInt64} {n : Nat} (h : current.toNat + n < UInt64.size) :
    (counted base (current + .ofNat n)).toNat ≤ (counted base current).toNat + n := by
  rw [toNat_counted, toNat_counted, toNat_add_of_fits h]
  split <;> split <;> omega

/-! ## A server that transfers -/

namespace Metering

/-- What can happen to a server that is metered. -/
inductive Incident where
  /-- It receives and sends some bytes. -/
  | transfer (received sent : Nat)
  /-- One of its counters, or both, start from zero. -/
  | restart (inbound outbound : Bool)
  /-- It is written, with the counters that it has, or removed, or another server is. -/
  | write (w : Write Server UInt64)
  | setClosed (closed : Bool)
  | pass (now : UInt64)

/-- One server, and the metering that it is part of. -/
structure Device (id : UInt64) where
  metering : Metering
  /-- What its counters stand at, whether the roster has the server or not. -/
  counters : Counters
  /-- The bytes received since the first pass that found the server. -/
  received : Nat := 0
  /-- The bytes sent since then. -/
  sent : Nat := 0

namespace Device

variable {id : UInt64}

/-- A server of the start, at the counters that it is listed with. -/
def start (id : UInt64) (rows : List Server) : Device id where
  metering := { servers := .ofList rows }
  counters := (((Roster.ofList rows : ServerRoster).get? id).map (·.counters)).getD {}

/-- A pass has found the server. -/
def sighted (d : Device id) : Bool := d.metering.passes.any fun p => (p.counters? id).isSome

/-- The roster with the counters of the server as they are now, if it has the server. -/
def showing (servers : ServerRoster) (id : UInt64) (counters : Counters) : ServerRoster :=
  match servers.get? id with
  | some server => servers.update { server with counters }
  | none => servers

/-- The counters come to stand at new values, and the roster shows them. -/
def count (d : Device id) (counters : Counters) : Device id :=
  { d with counters, metering := { d.metering with servers := showing d.metering.servers id counters } }

def transfer (d : Device id) (received sent : Nat) : Device id :=
  { d.count ⟨d.counters.inbound + .ofNat received, d.counters.outbound + .ofNat sent⟩ with
    received := d.received + if d.sighted then received else 0
    sent := d.sent + if d.sighted then sent else 0 }

def restart (d : Device id) (inbound outbound : Bool) : Device id :=
  d.count ⟨if inbound then 0 else d.counters.inbound, if outbound then 0 else d.counters.outbound⟩

/-- A row that is written for the server shows the counters as they stand. -/
def written (d : Device id) : Write Server UInt64 → Write Server UInt64
  | .put row => .put (if row.id = id then { row with counters := d.counters } else row)
  | .drop keys => .drop keys

/-- What an incident leads to. No transfer takes a counter past its range. -/
def step? (d : Device id) : Incident → Option (Device id)
  | .transfer received sent =>
    if d.counters.inbound.toNat + received < UInt64.size ∧ d.counters.outbound.toNat + sent < UInt64.size then
      some (d.transfer received sent)
    else none
  | .restart inbound outbound => some (d.restart inbound outbound)
  | .write w => some { d with metering := d.metering.move (.write (d.written w)) }
  | .setClosed closed => some { d with metering := d.metering.move (.setClosed closed) }
  | .pass now => some { d with metering := d.metering.move (.pass now) }

def run? (d : Device id) : List Incident → Option (Device id)
  | [] => some d
  | incident :: incidents => (d.step? incident).bind (run? · incidents)

/-! ## What has been reported and what would be -/

/-- What a pass right now would report. -/
def unreported (base? : Option Counters) (current : Counters) (counter : Counters → UInt64) : Nat :=
  match base? with
  | none => 0
  | some base => (counted (counter base) (counter current)).toNat

/-- The roster has the server with these counters, or not at all. -/
structure Shown (servers : ServerRoster) (id : UInt64) (counters : Counters) : Prop where
  keyed : servers.toContents.Keyed
  counters : ∀ server, servers.get? id = some server → server.counters = counters

/-- The meter knows the server only if a pass has found it, and what has been reported and would be is at
most what was transferred since that pass. -/
structure Covered (d : Device id) : Prop where
  shown : Shown d.metering.servers id d.counters
  sighted : (d.metering.meter.baselines[id]?).isSome → d.sighted = true
  inbound : reported d.metering.sink.records id (·.inbound) +
    unreported d.metering.meter.baselines[id]? d.counters (·.inbound) ≤ d.received
  outbound : reported d.metering.sink.records id (·.outbound) +
    unreported d.metering.meter.baselines[id]? d.counters (·.outbound) ≤ d.sent

theorem covered_start (rows : List Server) : (start id rows).Covered := by
  have hbase : (start id rows).metering.meter.baselines[id]? = none := Std.ExtTreeMap.getElem?_empty
  refine ⟨⟨Contents.keyed_ofList rows, fun server hserver => ?_⟩, ?_, ?_, ?_⟩
  · have hget : (Roster.ofList rows : ServerRoster).get? id = some server := hserver
    unfold start
    rw [hget]; rfl
  · rw [hbase]
    intro h; cases h
  · rw [hbase]; exact Nat.le_refl 0
  · rw [hbase]; exact Nat.le_refl 0

/-! ## The roster shows the counters -/

theorem Shown.showing {servers : ServerRoster} {before : Counters} (h : Shown servers id before) (counters : Counters) :
    Shown (showing servers id counters) id counters := by
  unfold Device.showing
  split
  · rename_i server hserver
    have hkey : Entity.key ({ server with counters } : Server) = id := h.keyed id server hserver
    have hput : (servers.update { server with counters }).toContents =
        servers.toContents.put { server with counters } := Roster.toContents_write _ _
    refine ⟨by rw [hput]; exact h.keyed.put _, fun other hother => ?_⟩
    rw [hput, Contents.get?_put, if_pos hkey] at hother
    cases hother; rfl
  · rename_i hnone
    refine ⟨h.keyed, fun server hserver => ?_⟩
    rw [hnone] at hserver; cases hserver

theorem Covered.shown_write {d : Device id} (h : d.Covered) (w : Write Server UInt64) :
    Shown (d.metering.servers.write (d.written w)) id d.counters := by
  have hwrite : (d.metering.servers.write (d.written w)).toContents =
      d.metering.servers.toContents.apply (d.written w) := Roster.toContents_write _ _
  refine ⟨by rw [hwrite]; exact h.shown.keyed.apply _, fun server hserver => ?_⟩
  rw [hwrite] at hserver
  cases w with
  | put row =>
    have hput : (d.metering.servers.toContents.put
        (if row.id = id then { row with counters := d.counters } else row)).get? id = some server := hserver
    rw [Contents.get?_put] at hput
    by_cases hid : row.id = id
    · rw [if_pos hid] at hput
      have hkey : Entity.key ({ row with counters := d.counters } : Server) = id := hid
      rw [if_pos hkey] at hput
      cases hput; rfl
    · rw [if_neg hid] at hput
      have hkey : ¬ Entity.key row = id := hid
      rw [if_neg hkey] at hput
      exact h.shown.counters server hput
  | drop keys =>
    have hdrop : (d.metering.servers.toContents.apply (.drop keys)).get? id = some server := hserver
    rw [Contents.get?_drop] at hdrop
    split at hdrop
    · cases hdrop
    · exact h.shown.counters server hdrop

/-! ## Incidents between passes -/

/-- As long as no pass is made, the bytes transferred have to make up for what would be reported. -/
theorem Covered.between {d : Device id} (h : d.Covered) {servers : ServerRoster} {counters : Counters}
    (received sent : Nat) (hshown : Shown servers id counters)
    (hin : unreported d.metering.meter.baselines[id]? counters (·.inbound) ≤
      unreported d.metering.meter.baselines[id]? d.counters (·.inbound) + received)
    (hout : unreported d.metering.meter.baselines[id]? counters (·.outbound) ≤
      unreported d.metering.meter.baselines[id]? d.counters (·.outbound) + sent) :
    (⟨{ d.metering with servers }, counters, d.received + received, d.sent + sent⟩ : Device id).Covered := by
  obtain ⟨-, hsighted, hinbound, houtbound⟩ := h
  exact ⟨hshown, hsighted, by dsimp only; omega, by dsimp only; omega⟩

/-- Bytes count only once a pass has found the server, but before that nothing would be reported. -/
theorem Covered.unreported_add_le {d : Device id} (h : d.Covered) {received sent : Nat}
    (hin : d.counters.inbound.toNat + received < UInt64.size)
    (hout : d.counters.outbound.toNat + sent < UInt64.size) :
    let later : Counters := ⟨d.counters.inbound + .ofNat received, d.counters.outbound + .ofNat sent⟩
    unreported d.metering.meter.baselines[id]? later (·.inbound) ≤
        unreported d.metering.meter.baselines[id]? d.counters (·.inbound) + (if d.sighted then received else 0) ∧
      unreported d.metering.meter.baselines[id]? later (·.outbound) ≤
        unreported d.metering.meter.baselines[id]? d.counters (·.outbound) + (if d.sighted then sent else 0) := by
  cases hbase : d.metering.meter.baselines[id]? with
  | none => exact ⟨Nat.zero_le _, Nat.zero_le _⟩
  | some base =>
    have hsighted : d.sighted = true := h.sighted (by rw [hbase]; rfl)
    rw [if_pos hsighted, if_pos hsighted]
    exact ⟨toNat_counted_add_le base.inbound hin, toNat_counted_add_le base.outbound hout⟩

theorem Covered.transfer {d : Device id} (h : d.Covered) {received sent : Nat}
    (hin : d.counters.inbound.toNat + received < UInt64.size)
    (hout : d.counters.outbound.toNat + sent < UInt64.size) : (d.transfer received sent).Covered := by
  obtain ⟨hinbound, houtbound⟩ := h.unreported_add_le hin hout
  exact h.between _ _ (h.shown.showing _) hinbound houtbound

theorem unreported_restart_le (base? : Option Counters) (current : Counters) (inbound outbound : Bool) :
    let later : Counters := ⟨if inbound then 0 else current.inbound, if outbound then 0 else current.outbound⟩
    unreported base? later (·.inbound) ≤ unreported base? current (·.inbound) ∧
      unreported base? later (·.outbound) ≤ unreported base? current (·.outbound) := by
  cases base? with
  | none => exact ⟨Nat.le_refl 0, Nat.le_refl 0⟩
  | some base =>
    cases inbound <;> cases outbound <;> simp [unreported, counted_zero]

theorem Covered.restart {d : Device id} (h : d.Covered) (inbound outbound : Bool) :
    (d.restart inbound outbound).Covered := by
  obtain ⟨hin, hout⟩ := unreported_restart_le d.metering.meter.baselines[id]? d.counters inbound outbound
  exact h.between 0 0 (h.shown.showing _) hin hout

theorem Covered.write {d : Device id} (h : d.Covered) (w : Write Server UInt64) :
    ({ d with metering := d.metering.move (.write (d.written w)) } : Device id).Covered :=
  h.between 0 0 (h.shown_write w) (Nat.le_refl _) (Nat.le_refl _)

/-! ## Passes -/

/-- A pass has no records for a server that is not there. -/
theorem reported_batch_of_absent {m : Meter} {servers : ServerRoster} (h : servers.get? id = none) (hour : UInt64)
    (amount : Usage → UInt64) : reported (m.batch servers.toList hour) id amount = 0 := by
  unfold reported
  rw [m.filter_batch (enumerates_toList servers.toContents), show servers.toContents.get? id = none from h]
  rfl

/-- A pass that goes through reports what is unreported, and leaves nothing so. -/
theorem Covered.reported_batch {d : Device id} (h : d.Covered) (hour : UInt64) :
    reported (d.metering.meter.batch d.metering.servers.toList hour) id (·.inbound) ≤
        unreported d.metering.meter.baselines[id]? d.counters (·.inbound) ∧
      reported (d.metering.meter.batch d.metering.servers.toList hour) id (·.outbound) ≤
        unreported d.metering.meter.baselines[id]? d.counters (·.outbound) := by
  cases hserver : d.metering.servers.get? id with
  | none =>
    rw [reported_batch_of_absent hserver, reported_batch_of_absent hserver]
    exact ⟨Nat.zero_le _, Nat.zero_le _⟩
  | some server =>
    have hlist := enumerates_toList d.metering.servers.toContents
    cases hbase : d.metering.meter.baselines[id]? with
    | none =>
      rw [Meter.reported_batch_of_newcomer hlist hbase, Meter.reported_batch_of_newcomer hlist hbase]
      exact ⟨Nat.zero_le _, Nat.zero_le _⟩
    | some base =>
      obtain ⟨hin, hout⟩ := Meter.reported_batch hlist hserver hbase hour
      rw [hin, hout, h.shown.counters server hserver]
      exact ⟨Nat.le_refl _, Nat.le_refl _⟩

/-- Right after a pass that went through there is nothing to report. -/
theorem Shown.unreported_eq_zero {servers : ServerRoster} {current : Counters} (h : Shown servers id current)
    (counter : Counters → UInt64) : unreported ((servers.get? id).map (·.counters)) current counter = 0 := by
  cases hserver : servers.get? id with
  | none => rfl
  | some server =>
    show (counted (counter server.counters) (counter current)).toNat = 0
    rw [h.counters server hserver, Finding.counted_self]
    rfl

theorem Covered.pass {d : Device id} (h : d.Covered) (now : UInt64) :
    ({ d with metering := d.metering.move (.pass now) } : Device id).Covered := by
  obtain ⟨hbatchIn, hbatchOut⟩ := h.reported_batch (hourOf now)
  obtain ⟨hshown, hsighted, hinbound, houtbound⟩ := h
  obtain ⟨good, meter, sink, hmove, ⟨-, hmeter, hsink⟩ | ⟨-, hsink, hmeter⟩⟩ := d.metering.move_pass now
  · rw [hmove]
    have hbound : ∀ {amount counter} {total : Nat},
        reported (d.metering.meter.batch d.metering.servers.toList (hourOf now)) id amount ≤
          unreported d.metering.meter.baselines[id]? d.counters counter →
        reported d.metering.sink.records id amount + unreported d.metering.meter.baselines[id]? d.counters counter ≤
          total →
        reported sink.records id amount + unreported meter.baselines[id]? d.counters counter ≤ total := by
      intro amount counter total hbatch hbefore
      rw [hsink, reported_append, hmeter, hshown.unreported_eq_zero]
      exact le_trans (Nat.add_le_add_left hbatch _) hbefore
    refine ⟨hshown, fun hbase => ?_, hbound hbatchIn hinbound, hbound hbatchOut houtbound⟩
    -- the meter knows the server because this pass has found it
    have hfound : ((d.metering.servers.get? id).map (·.counters)).isSome := by
      rw [← hmeter id]; exact hbase
    show (d.metering.passes ++ [_]).any _ = true
    rw [List.any_append, List.any_cons, Pass.counters?, hfound, Bool.true_or, Bool.or_true]
  · rw [hmove]
    -- the baseline is kept, or dropped if the server is gone, and with it what would be reported
    have hkept : meter.baselines[id]? = d.metering.meter.baselines[id]? ∨ meter.baselines[id]? = none := by
      rw [hmeter]
      split
      · exact .inl rfl
      · exact .inr rfl
    have hbound : ∀ {amount counter} {total : Nat},
        reported d.metering.sink.records id amount + unreported d.metering.meter.baselines[id]? d.counters counter ≤
          total →
        reported sink.records id amount + unreported meter.baselines[id]? d.counters counter ≤ total := by
      intro amount counter total hbefore
      rw [hsink]
      rcases hkept with hsame | hnone
      · rw [hsame]; exact hbefore
      · rw [hnone]; exact le_trans (Nat.add_le_add_left (Nat.zero_le _) _) hbefore
    refine ⟨hshown, fun hbase => ?_, hbound hinbound, hbound houtbound⟩
    rcases hkept with hsame | hnone
    · have hbefore : d.metering.passes.any (fun p => (p.counters? id).isSome) = true := hsighted (hsame ▸ hbase)
      show (d.metering.passes ++ [_]).any _ = true
      rw [List.any_append, hbefore, Bool.true_or]
    · have hbase : (meter.baselines[id]?).isSome = true := hbase
      rw [hnone] at hbase; cases hbase

/-! ## Runs -/

theorem Covered.step {d e : Device id} (h : d.Covered) {incident : Incident} (hstep : d.step? incident = some e) :
    e.Covered := by
  cases incident with
  | transfer received sent =>
    unfold step? at hstep
    dsimp only at hstep
    split at hstep
    · rename_i hfits
      cases hstep
      exact h.transfer hfits.1 hfits.2
    · cases hstep
  | restart inbound outbound => cases hstep; exact h.restart inbound outbound
  | write w => cases hstep; exact h.write w
  | setClosed closed => cases hstep; exact ⟨h.shown, h.sighted, h.inbound, h.outbound⟩
  | pass now => cases hstep; exact h.pass now

theorem Covered.run {d e : Device id} (h : d.Covered) {incidents : List Incident} (hrun : d.run? incidents = some e) :
    e.Covered := by
  induction incidents generalizing d with
  | nil => cases hrun; exact h
  | cons incident incidents ih =>
    obtain ⟨next, hstep, hrest⟩ := Option.bind_eq_some_iff.1 hrun
    exact ih (h.step hstep) hrest

/-- Whatever happens to a server, the records never give more for it, in either direction, than it has
transferred since the first pass that found it. -/
theorem reported_le_transferred {rows : List Server} {incidents : List Incident} {d : Device id}
    (h : (start id rows).run? incidents = some d) :
    reported d.metering.sink.records id (·.inbound) ≤ d.received ∧
      reported d.metering.sink.records id (·.outbound) ≤ d.sent := by
  obtain ⟨-, -, hinbound, houtbound⟩ := (covered_start rows).run h
  exact ⟨le_trans (Nat.le_add_right _ _) hinbound, le_trans (Nat.le_add_right _ _) houtbound⟩

/-- The counters start from zero and climb past the baseline unseen, the next pass fails, and then the server
is removed, transfers on and comes back. What came before the first pass and what the restart hid is missing,
and nothing is given twice. -/
theorem reported_le_transferred_of_hidden_restart :
    let rows : List Server := [{ id := 1, counters := ⟨100, 5⟩ }, { id := 2 }]
    let incidents : List Incident :=
      [.transfer 50 1, .pass 0, .transfer 10 10, .restart true false, .transfer 200 0,
        .write (.put { id := 2, counters := ⟨7, 0⟩ }), .setClosed true, .pass 3600,
        .write (.drop [1]), .transfer 3 4, .write (.put { id := 1 }), .setClosed false, .pass 7200,
        .write (.drop [1]), .pass 9000, .transfer 1 1, .write (.put { id := 1 }), .pass 10800]
    ∃ d : Device 1, (start 1 rows).run? incidents = some d ∧
      (d.received, d.sent) = (214, 15) ∧
      d.metering.sink.records = [⟨1, 53, 14, 7200⟩, ⟨2, 7, 0, 7200⟩] ∧
      reported d.metering.sink.records 1 (·.inbound) ≤ d.received ∧
      reported d.metering.sink.records 1 (·.outbound) ≤ d.sent := by
  intro rows incidents
  have hoccurs : ((start 1 rows).run? incidents).isSome := by decide +kernel
  have hvalues : ∀ d ∈ (start 1 rows).run? incidents, (d.received, d.sent) = (214, 15) ∧
      d.metering.sink.records = [⟨1, 53, 14, 7200⟩, ⟨2, 7, 0, 7200⟩] := by decide +kernel
  obtain ⟨d, hrun⟩ := Option.isSome_iff_exists.1 hoccurs
  obtain ⟨htransferred, hrecords⟩ := hvalues d hrun
  exact ⟨d, hrun, htransferred, hrecords, reported_le_transferred hrun⟩

end Device

end Metering

end FleetRoster
