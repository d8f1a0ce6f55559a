/-
What one pass does, in whatever order it comes across the servers and whatever the sink makes of its
records. A server has a record if the meter has a baseline of it and a counter has counted something
since. The sink is offered the records once, or nothing if there are none, and what becomes of the pass
is what becomes of the offer: if it goes through, the meter stands at the counters of the servers there
are; if not, it keeps what it knew of these servers.
-/
import FleetRoster.Proofs.Meter.Pass

namespace FleetRoster

open Std (ExtTreeMap)

/-! ## The hour of a moment -/

theorem toNat_hourOf_add (now : UInt64) : (hourOf now).toNat + now.toNat % 3600 = now.toNat := by
  have hmod : (now % 3600).toNat = now.toNat % 3600 := UInt64.toNat_mod now 3600
  have hle : now.toNat % 3600 ≤ now.toNat := Nat.mod_le _ _
  unfold hourOf
  rw [UInt64.toNat_sub_of_le _ _ (UInt64.le_iff_toNat_le.2 (hmod ▸ hle)), hmod]
  omega

/-- The hour is the last full one that is not ahead of the moment. -/
theorem isGreatest_hourOf (now : UInt64) : IsGreatest {t : ℕ | 3600 ∣ t ∧ t ≤ now.toNat} (hourOf now).toNat := by
  have hsplit := toNat_hourOf_add now
  constructor
  · show 3600 ∣ (hourOf now).toNat ∧ (hourOf now).toNat ≤ now.toNat
    omega
  · rintro t ⟨hhour, hle⟩
    omega

/-! ## Sinks that are watched -/

/-- A sink together with the batches that it has been offered. -/
structure Watched (σ : Type) where
  sink : σ
  offers : List (List Usage) := []

instance {σ ε : Type} [Sink σ ε] : Sink (Watched σ) ε where
  offer watched batch :=
    let (result, sink) := Sink.offer watched.sink batch
    (result, { sink, offers := watched.offers ++ [batch] })

namespace Meter

variable {σ ε : Type} [Sink σ ε] {servers : List (UInt64 × Server)} {lookup : UInt64 → Option Server}

/-- A pass goes with a watched sink as it goes with the sink; it offers its records, if there are any,
once. -/
theorem pass_watched (m : Meter) (servers : List (UInt64 × Server)) (watched : Watched σ) (now : UInt64) :
    m.pass servers watched now =
      let (result, after, later) := m.pass servers watched.sink now
      let batch := m.batch servers (hourOf now)
      (result, after, { sink := later, offers := watched.offers ++ if batch = [] then [] else [batch] }) := by
  unfold pass
  by_cases hnone : m.batch servers (hourOf now) = []
  · simp [hnone]
  · simp only [List.isEmpty_iff, if_neg hnone, Sink.offer]
    rcases Sink.offer watched.sink (m.batch servers (hourOf now)) with ⟨e | ⟨⟩, later⟩ <;> rfl

/-! ## The records of a pass -/

theorem mem_batch_iff {m : Meter} (h : Enumerates servers lookup) {hour : UInt64} {usage : Usage} :
    usage ∈ m.batch servers hour ↔ m.due? (lookup usage.server) usage.server hour = some usage := by
  have hown : usage ∈ m.batch servers hour ↔ usage ∈ (m.batch servers hour).filter (·.server = usage.server) := by
    rw [List.mem_filter]
    simp
  rw [hown, m.filter_batch h, Option.mem_toList]

/-- No server has two records. -/
theorem nodup_servers_batch (m : Meter) (h : Enumerates servers lookup) (hour : UInt64) :
    ((m.batch servers hour).map (·.server)).Nodup := by
  rw [List.Nodup, List.pairwise_map]
  refine List.Pairwise.filterMap _ ?_ h.distinct
  intro a b hne u hu v hv
  rw [server_of_record? hu, server_of_record? hv]
  exact hne

theorem tracked_eq_size {m : Meter} {roster : ServerRoster}
    (h : ∀ id, m.baselines[id]? = (roster.get? id).map (·.counters)) : m.tracked = roster.size := by
  have hmap : m.baselines = roster.rows.map fun _ server => server.counters := by
    apply ExtTreeMap.ext_getElem?
    intro id
    rw [h, ExtTreeMap.getElem?_map]
    rfl
  unfold tracked
  rw [hmap, ExtTreeMap.size_map]
  rfl

/-! ## One pass -/

/-- Take any meter, the servers of any roster in any order, any sink and any moment: the records of a pass,
one for a server and stamped with the last full hour; the offers made to a sink that has them counted;
the result, which is the number of records if the pass goes through; and the meter afterwards. No
subtraction on the way falls below zero. -/
theorem pass_in_any_order (m : Meter) (roster : ServerRoster) (hservers : Enumerates servers roster.get?)
    (sink : σ) (now : UInt64) :
    ∃ (batch : List Usage) (result : Except ε Nat) (after : Meter) (later : σ),
      (∀ usage, usage ∈ batch ↔ ∃ server base, roster.get? usage.server = some server ∧
        m.baselines[usage.server]? = some base ∧ ¬ (usage.inbound = 0 ∧ usage.outbound = 0) ∧
        usage.inbound = counted base.inbound server.counters.inbound ∧
        usage.outbound = counted base.outbound server.counters.outbound ∧ usage.hour = hourOf now) ∧
      (batch.map (·.server)).Nodup ∧
      m.pass servers sink now = (result, after, later) ∧
      (servers = roster.toList → m.record roster sink now = (result, after, later)) ∧
      m.pass servers (Watched.mk sink []) now = (result, after, ⟨later, if batch = [] then [] else [batch]⟩) ∧
      (batch = [] → result = .ok 0 ∧ later = sink) ∧
      (batch ≠ [] → Sink.offer sink batch = (result.map fun _ => (), later)) ∧
      (∀ n, result = .ok n → n = batch.length ∧
        (∀ id, after.baselines[id]? = (roster.get? id).map (·.counters)) ∧ after.tracked = roster.size) ∧
      (∀ e, result = .error e →
        ∀ id, after.baselines[id]? = if (roster.get? id).isSome then m.baselines[id]? else none) ∧
      IsGreatest {t : ℕ | 3600 ∣ t ∧ t ≤ now.toNat} (hourOf now).toNat ∧
      (hourOf now).toNat + now.toNat % 3600 = now.toNat ∧
      ∀ base current : UInt64, (base ≤ current → base.toNat + (counted base current).toNat = current.toNat) ∧
        (current < base → counted base current = current) := by
  have hmem : ∀ usage, usage ∈ m.batch servers (hourOf now) ↔ ∃ server base, roster.get? usage.server = some server ∧
      m.baselines[usage.server]? = some base ∧ ¬ (usage.inbound = 0 ∧ usage.outbound = 0) ∧
      usage.inbound = counted base.inbound server.counters.inbound ∧
      usage.outbound = counted base.outbound server.counters.outbound ∧ usage.hour = hourOf now := by
    rintro ⟨id, inbound, outbound, hour⟩
    rw [mem_batch_iff hservers, due?_eq_some_iff]
    simp only [Usage.mk.injEq, true_and]
  have hwatched := m.pass_watched servers (Watched.mk sink []) now
  have hexact : ∀ base current : UInt64, (base ≤ current → base.toNat + (counted base current).toNat = current.toNat) ∧
      (current < base → counted base current = current) :=
    fun base current => ⟨toNat_counted_of_le, counted_of_lt⟩
  have hcaught : (∀ id, (m.caughtUp servers).baselines[id]? = (roster.get? id).map (·.counters)) :=
    m.getElem?_caughtUp hservers
  rcases m.pass_cases servers sink now with ⟨hnone, h⟩ | ⟨hsome, ⟨later, hoffer, h⟩ | ⟨e, later, hoffer, h⟩⟩
  all_goals
    rw [h] at hwatched
    refine ⟨_, _, _, _, hmem, nodup_servers_batch m hservers _, h, by rintro rfl; exact h, hwatched, ?_, ?_, ?_, ?_,
      isGreatest_hourOf now, toNat_hourOf_add now, hexact⟩
  -- no records
  · exact fun _ => ⟨rfl, rfl⟩
  · exact fun hsome => absurd hnone hsome
  · rintro n ⟨⟩
    exact ⟨by rw [hnone]; rfl, hcaught, tracked_eq_size hcaught⟩
  · rintro e ⟨⟩
  -- records that are accepted
  · exact fun hnone => absurd hnone hsome
  · exact fun _ => hoffer
  · rintro n ⟨⟩
    exact ⟨rfl, hcaught, tracked_eq_size hcaught⟩
  · rintro e ⟨⟩
  -- records that are refused
  · exact fun hnone => absurd hnone hsome
  · exact fun _ => hoffer
  · rintro n ⟨⟩
  · rintro _ ⟨⟩
    exact m.getElem?_retain hservers

/-- Servers by descending id: one has transferred, one has started from zero, one is new; a fourth is
gone. -/
theorem pass_in_any_order_backwards :
    let m : Meter := ⟨((∅ : ExtTreeMap UInt64 Counters).insert 1 ⟨5, 0⟩).insert 2 ⟨7, 7⟩ |>.insert 9 ⟨1, 1⟩⟩
    let roster : ServerRoster := .ofList [{ id := 1, counters := ⟨8, 0⟩ }, { id := 2 }, { id := 3 }]
    let servers := roster.toList.reverse
    Enumerates servers roster.get? ∧
      ∃ after, m.pass servers ({} : MemorySink) 7300 = (.ok 1, after, { records := [⟨1, 3, 0, 7200⟩] }) ∧
        after.tracked = 3 ∧ after.baselines[(2 : UInt64)]? = some ⟨0, 0⟩ ∧ after.baselines[(9 : UInt64)]? = none := by
  intro m roster servers
  have hservers : Enumerates servers roster.get? := (enumerates_toList roster.toContents).perm (List.reverse_perm _)
  refine ⟨hservers, ?_⟩
  obtain ⟨batch, result, after, later, -, -, hpass, -, -, -, -, hok, -⟩ :=
    m.pass_in_any_order roster hservers ({} : MemorySink) 7300
  have hresult : (m.pass servers ({} : MemorySink) 7300).1 = .ok 1 := by decide +kernel
  have hlater : (m.pass servers ({} : MemorySink) 7300).2.2 = { records := [⟨1, 3, 0, 7200⟩] } := by decide +kernel
  rw [hpass] at hresult hlater
  cases hresult
  cases hlater
  obtain ⟨-, hbaselines, htracked⟩ := hok 1 rfl
  exact ⟨after, hpass, htracked, hbaselines 2, hbaselines 9⟩

end Meter

end FleetRoster
