import TermReplay.Proofs.PlaybackClock

/-!
The limit of chunks in a tick. A tick feeds the chunks in front that are due, as many as the limit
allows; what it leaves is still due, since the clock does not go back. So ticks of no length feed
the rest, and in the end the playback is where a tick without a limit would have brought it.
-/

namespace TermReplay

namespace Duration

open Float.Model (pack)
open Float.Model.UnpackedFloat (Sign)

/-- A zero may have either sign. -/
theorem nearest_zero (sign : Sign) : nearest (.ofModel (pack (.zero sign))) = zero := by
  cases sign <;> decide +kernel

theorem zero_mul_speed {speed : Float} (h : speed.isFinite = true) :
    ∃ sign, zero.inSeconds * speed = .ofModel (pack (.zero sign)) := by
  have hzero : zero.inSeconds.toModel.unpack = .zero .positive := rfl
  have hmul : zero.inSeconds * speed = .ofModel (pack
      (.mul .binary64 zero.inSeconds.toModel.unpack speed.toModel.unpack)) := rfl
  have hfinite : speed.toModel.unpack.isFinite = true := h
  rw [hmul, hzero]
  cases hs : speed.toModel.unpack with
  | notANumber | infinity sign =>
      rw [hs] at hfinite
      cases hfinite
  | zero sign | finite sign mantissa exponent => exact ⟨_, rfl⟩

/-- No time at all is none at any speed. -/
theorem scaled_zero {speed : Float} (h : speed.isFinite = true) : zero.scaled speed = zero := by
  obtain ⟨sign, hsign⟩ := zero_mul_speed h
  rw [scaled, hsign, nearest_zero]

end Duration

namespace Playback

def Readable (p : Playback) : Prop :=
  ∀ k, k < p.chunks.size - p.next → (p.played k).nextStuck = none

instance (p : Playback) : Decidable p.Readable :=
  inferInstanceAs (Decidable (∀ k, k < p.chunks.size - p.next → (p.played k).nextStuck = none))

/-- How many of the chunks that are left are due one after the other: up to the first that is
later than the clock, even if some behind it are not. -/
def dueCount (p : Playback) : Nat :=
  ((List.range (p.chunks.size - p.next)).takeWhile fun k => p.offset (p.next + k) ≤ p.clock).length

/-- Ticks of no length, one after the other until one feeds nothing, end with the second
playback. -/
inductive Settles : Playback → Playback → Prop
  | done {p : Playback} (h : (p.tick .zero).result = .ok 0) : Settles p (p.tick .zero).playback
  | more {p r : Playback} {count : Nat} (h : (p.tick .zero).result = .ok (count + 1))
      (rest : Settles (p.tick .zero).playback r) : Settles p r

variable {p r r' : Playback}

theorem isDue_played (p : Playback) (k : Nat) :
    (p.played k).isDue = true ↔ k < p.chunks.size - p.next ∧ p.offset (p.next + k) ≤ p.clock := by
  rw [isDue_eq_true, played_next, played_chunks, Nat.lt_sub_iff_add_lt']
  rfl

theorem dueCount_eq_findIdx (p : Playback) :
    p.dueCount = (List.range (p.chunks.size - p.next)).findIdx
      fun k => !decide (p.offset (p.next + k) ≤ p.clock) := by
  rw [dueCount, List.takeWhile_eq_take_findIdx_not, List.length_take]
  exact Nat.min_eq_left List.findIdx_le_length

theorem dueCount_le (p : Playback) : p.dueCount ≤ p.chunks.size - p.next := by
  have hlength : p.dueCount ≤ (List.range (p.chunks.size - p.next)).length :=
    (List.takeWhile_prefix _).length_le
  rwa [List.length_range] at hlength

theorem isDue_of_lt_dueCount {k : Nat} (hk : k < p.dueCount) : (p.played k).isDue = true := by
  have hsize := Nat.lt_of_lt_of_le hk p.dueCount_le
  rw [dueCount_eq_findIdx] at hk
  have hdue := List.not_of_lt_findIdx hk
  rw [List.getElem_range, Bool.not_eq_false', decide_eq_true_eq] at hdue
  exact (isDue_played p k).mpr ⟨hsize, hdue⟩

theorem not_isDue_dueCount (p : Playback) : (p.played p.dueCount).isDue = false := by
  rw [← Bool.not_eq_true, isDue_played, dueCount_eq_findIdx]
  rintro ⟨hsize, hdue⟩
  have hinside : (List.range (p.chunks.size - p.next)).findIdx
      (fun k => !decide (p.offset (p.next + k) ≤ p.clock)) <
        (List.range (p.chunks.size - p.next)).length := by
    rwa [List.length_range]
  have hlater := List.findIdx_getElem (w := hinside)
  rw [List.getElem_range, Bool.not_eq_true', decide_eq_false_iff_not] at hlater
  exact hlater hdue

/-- The chunks that are due end where the first one is not. -/
theorem dueCount_eq_iff {count : Nat} :
    p.dueCount = count ↔
      (∀ k, k < count → (p.played k).isDue = true) ∧ (p.played count).isDue = false := by
  constructor
  · rintro rfl
    exact ⟨fun _ => isDue_of_lt_dueCount, p.not_isDue_dueCount⟩
  · rintro ⟨hdue, hlater⟩
    obtain hlt | heq | hgt := Nat.lt_trichotomy p.dueCount count
    · exact absurd (hdue _ hlt) (Bool.not_eq_true _ ▸ p.not_isDue_dueCount)
    · exact heq
    · exact absurd (isDue_of_lt_dueCount hgt) (Bool.not_eq_true _ ▸ hlater)

theorem dueCount_played {n : Nat} (hn : n ≤ p.dueCount) :
    (p.played n).dueCount = p.dueCount - n := by
  refine dueCount_eq_iff.mpr ⟨?_, ?_⟩
  · intro k hk
    rw [played_played]
    exact isDue_of_lt_dueCount (by omega)
  · rw [played_played, Nat.add_sub_cancel' hn]
    exact p.not_isDue_dueCount

theorem nextStuck_eq (p : Playback) :
    p.nextStuck = p.chunks[p.next]?.bind fun chunk =>
      (p.player.feed chunk.data).stuck.map fun stuck => ⟨p.next, stuck⟩ := by
  rw [nextStuck, feedNext]
  cases p.chunks[p.next]? <;> rfl

/-- Clock, speed and limit have no part in it. -/
theorem Readable.congr (h : p.Readable) {q : Playback} (hc : q.chunks = p.chunks)
    (hn : q.next = p.next) (hp : q.player = p.player) : q.Readable := by
  intro k hk
  rw [hc, hn] at hk
  have hfree := h k hk
  rw [nextStuck_eq] at hfree ⊢
  simp only [Playback.played, hc, hn, hp]
  exact hfree

theorem Readable.played (h : p.Readable) (n : Nat) : (p.played n).Readable := by
  intro k hk
  rw [played_next, played_chunks] at hk
  rw [played_played]
  exact h (n + k) (by omega)

/-- Chunks that can be read are fed as long as they are due and the budget allows. -/
theorem Readable.feedWhile_due (h : p.Readable) (budget : Nat) :
    (feedWhile isDue budget p).result = .ok (min budget p.dueCount) ∧
      (feedWhile isDue budget p).playback = p.played (min budget p.dueCount) := by
  by_cases hp : p.next ≤ p.chunks.size
  · obtain ⟨count, hplays⟩ := feedWhile_plays (fun _ hq => (isDue_eq_true.mp hq).1) budget hp
    have hinside := hplays.inside
    have hcount := hplays.count_le
    obtain ⟨hok, -, hend⟩ | ⟨e, last, -, hlast, hstuck, -⟩ := hplays.outcome
    · have hmin : min budget p.dueCount = count := by
        obtain rfl | hlater := hend
        · refine Nat.min_eq_left (Nat.le_of_not_lt fun hlt => ?_)
          have hdue := hplays.asked _ hlt
          rw [p.not_isDue_dueCount] at hdue
          cases hdue
        · rw [dueCount_eq_iff.mpr ⟨hplays.asked, hlater⟩, Nat.min_eq_right hcount]
      rw [hmin]
      exact ⟨hok, hplays.playback_eq⟩
    · rw [h last (by omega)] at hstuck
      cases hstuck
  · have hnone : p.isDue = false := by
      rw [← Bool.not_eq_true, isDue_eq_true]
      omega
    have hzero : p.dueCount = 0 := dueCount_eq_iff.mpr ⟨nofun, hnone⟩
    rw [feedWhile_of_false hnone, hzero, Nat.min_zero]
    exact ⟨rfl, rfl⟩

/-- With chunks that can be read, a tick feeds what is due as far as the limit goes. -/
theorem Readable.tick (h : p.Readable) (elapsed : Duration) :
    (p.tick elapsed).result = .ok (min p.chunksPerTick (p.later elapsed).dueCount) ∧
      (p.tick elapsed).playback =
        (p.later elapsed).played (min p.chunksPerTick (p.later elapsed).dueCount) := by
  have hlater : (p.later elapsed).Readable := h.congr rfl rfl rfl
  exact hlater.feedWhile_due p.chunksPerTick

theorem Settles.unique (h : p.Settles r) (h' : p.Settles r') : r = r' := by
  induction h with
  | done hr =>
      cases h' with
      | done => rfl
      | more hr' =>
          rw [hr] at hr'
          cases hr'
  | more hr rest ih =>
      cases h' with
      | done hr' =>
          rw [hr] at hr'
          cases hr'
      | more hr' rest' => exact ih rest'

theorem pace_zero (hspeed : isForward p.speed = true) : p.pace .zero = .zero :=
  Duration.scaled_zero (Bool.and_eq_true_iff.mp hspeed).1

/-- Each tick feeds as much as the limit allows, which is not nothing. -/
theorem Readable.settles (h : p.Readable) (hlimit : 1 ≤ p.chunksPerTick)
    (hspeed : isForward p.speed = true) : p.Settles (p.played p.dueCount) := by
  generalize hd : p.dueCount = due
  induction due using Nat.strongRecOn generalizing p with
  | ind due ih =>
    have hlater : p.later .zero = p :=
      later_eq_self (congrArg Duration.nanoseconds (pace_zero hspeed))
    obtain ⟨hresult, hplayback⟩ := h.tick .zero
    rw [hlater, hd] at hresult hplayback
    obtain ⟨limit, hsucc⟩ := Nat.exists_eq_add_of_le' hlimit
    cases due with
    | zero =>
        rw [Nat.min_zero] at hresult hplayback
        exact hplayback ▸ .done hresult
    | succ due =>
        rw [hsucc, Nat.succ_min_succ] at hresult hplayback
        have hle : min limit due + 1 ≤ p.dueCount := by omega
        have hleft := dueCount_played hle
        have hrest := ih (due - min limit due) (by omega) (h.played (min limit due + 1)) hlimit
          hspeed (by omega)
        rw [played_played, show min limit due + 1 + (due - min limit due) = due + 1 by omega,
          ← hplayback] at hrest
        exact .more hresult hrest

/-- With chunks left that can all be read, a tick feeds those in front that are due at the new
clock, up to the limit and no more, and the clock does not go back. Ticks of no length after it
come to one that feeds nothing, and what they leave is what a single tick would have left whose
limit is not less than the chunks there are: the same player, position and clock. -/
theorem limit_only_postpones (h : p.Readable) (hlimit : 1 ≤ p.chunksPerTick)
    (hspeed : isForward p.speed = true) (elapsed : Duration) :
    let due := (p.later elapsed).dueCount
    (p.tick elapsed).result = .ok (min p.chunksPerTick due) ∧
      (p.tick elapsed).playback = (p.later elapsed).played (min p.chunksPerTick due) ∧
      p.clock ≤ (p.tick elapsed).playback.clock ∧
      (∃ r, (p.tick elapsed).playback.Settles r) ∧
      ∀ limit r, p.chunks.size ≤ limit → (p.tick elapsed).playback.Settles r →
        r = { ((p.setChunksPerTick limit).tick elapsed).playback with
          chunksPerTick := p.chunksPerTick } := by
  intro due
  obtain ⟨hresult, hplayback⟩ := h.tick elapsed
  have hlater : (p.later elapsed).Readable := h.congr rfl rfl rfl
  have hsettles : (p.tick elapsed).playback.Settles ((p.later elapsed).played due) := by
    have hleft := (hlater.played (min p.chunksPerTick due)).settles hlimit hspeed
    rwa [dueCount_played (Nat.min_le_right ..), played_played,
      Nat.add_sub_cancel' (Nat.min_le_right ..), ← hplayback] at hleft
  refine ⟨hresult, hplayback, ?_, ⟨_, hsettles⟩, ?_⟩
  · rw [hplayback]
    exact Duration.le_add p.clock (p.pace elapsed)
  · intro limit r hsize hr
    have hlimited : (p.setChunksPerTick limit).Readable := h.congr rfl rfl rfl
    have hdue : due ≤ max limit 1 := by
      have hle : due ≤ p.chunks.size - p.next := dueCount_le _
      omega
    have hall : min (p.setChunksPerTick limit).chunksPerTick
        ((p.setChunksPerTick limit).later elapsed).dueCount = due := Nat.min_eq_right hdue
    rw [(hlimited.tick elapsed).2, hall, hr.unique hsettles]
    rfl

/-- Five chunks of which the fourth is of before the third: half a second at double speed makes
four of them due, and a limit of two leaves the other two for later. -/
theorem limit_postpones_disordered_chunks :
    let player : Player := { stream := { limit := 16 }, terminal := Terminal.initial 4 2 1 }
    let recording : Recording :=
      [⟨.ofSeconds 5 0, [0x61]⟩, ⟨.ofSeconds 3 0, [0x62]⟩, ⟨.ofSeconds 6 0, [0x63, 0x1b]⟩,
        ⟨.ofSeconds 5 0, [0x5b, 0x37, 0x6d]⟩, ⟨.ofSeconds 9 0, [0x64]⟩]
    let p := (create player recording 2).setSpeed 2.0
    let elapsed := Duration.ofSeconds 0 500000000
    p.Readable ∧ 1 ≤ p.chunksPerTick ∧ isForward p.speed = true ∧
      (p.later elapsed).dueCount = 4 ∧
      (p.tick elapsed).result = .ok 2 ∧ (p.tick elapsed).playback.next = 2 ∧
      ∃ r, (p.tick elapsed).playback.Settles r ∧ r.next = 4 ∧ r.clock = .ofSeconds 1 0 := by
  intro player recording p elapsed
  have hread : p.Readable := by decide +kernel
  have hspeed : isForward p.speed = true := by decide +kernel
  have hdue : (p.later elapsed).dueCount = 4 := by decide +kernel
  obtain ⟨hresult, hplayback, -, ⟨r, hr⟩, hwhole⟩ :=
    limit_only_postpones hread (by decide) hspeed elapsed
  rw [hdue] at hresult hplayback
  obtain rfl := hwhole 5 r (by decide) hr
  exact ⟨hread, by decide, hspeed, hdue, hresult, congrArg next hplayback, _, hr,
    by decide +kernel, by decide +kernel⟩

end Playback

end TermReplay
