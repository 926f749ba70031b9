import Mathlib

/-!
# Ring buffers written by passes

A ring of `N` slots holds the last `N` of an unbounded run of entries: entry `q` lies in
slot `q mod N`, entries before the run have their slots too. `Holds` relates the slots to
the entries they stand for after `n` of them; the rules say what a write, a write of a
whole block and a write that also amends earlier entries make of it.
-/
namespace RingBuffer

def slot (N : Nat) (q : Int) : Nat := (q % N).toNat

theorem slot_lt (N : Nat) (hN : 0 < N) (q : Int) : slot N q < N := by
  have hlo := Int.emod_nonneg q (show (N : Int) ≠ 0 by omega)
  have hhi := Int.emod_lt_of_pos q (show (0 : Int) < N by omega)
  rw [slot]
  omega

@[simp] theorem slot_natCast (N n : Nat) : slot N n = n % N := by
  rw [slot, ← Int.natCast_emod, Int.toNat_natCast]

theorem slot_cast (N : Nat) (hN : 0 < N) (q : Int) : (slot N q : Int) = q % N :=
  Int.toNat_of_nonneg (Int.emod_nonneg q (by omega))

/-- Two entries less than a whole turn apart never share a slot. -/
theorem slot_inj (N : Nat) (q q' : Int) (h : slot N q = slot N q') (hlo : -(N : Int) < q - q')
    (hhi : q - q' < N) : q = q' := by
  have hN : 0 < N := by omega
  have hmod : q % N = q' % N := by rw [← slot_cast N hN q, ← slot_cast N hN q', h]
  obtain ⟨k, hk⟩ := Int.dvd_of_emod_eq_zero (Int.emod_eq_emod_iff_emod_sub_eq_zero.mp hmod)
  have hk0 : k = 0 := by
    by_contra hne
    rcases Int.lt_or_lt_of_ne hne with hneg | hpos
    · nlinarith
    · nlinarith
  rw [hk0, Int.mul_zero] at hk
  omega

/-- Inside a block that starts at a multiple of its length the slots do not wrap. -/
theorem slot_add (N m : Nat) (n : Int) (hN : m ∣ N) (hn : (m : Int) ∣ n) (i : Nat) (hi : i < m)
    (hpos : 0 < N) : slot N (n + i) = slot N n + i := by
  obtain ⟨a, rfl⟩ := hn
  obtain ⟨b, rfl⟩ := hN
  have hm : (0 : Int) < m := by omega
  have hb : (0 : Int) < b := by
    rcases Nat.eq_zero_or_pos b with hb | hb
    · simp [hb] at hpos
    · omega
  have hlt := Int.emod_lt_of_pos a hb
  have hnn := Int.emod_nonneg a (show (b : Int) ≠ 0 by omega)
  have hstart : (m * a : Int) % (m * b : Nat) = m * (a % b) := by
    push_cast
    exact Int.mul_emod_mul_of_pos a b hm
  have hsum : (m * a + i : Int) % (m * b : Nat) = m * (a % b) + i := by
    have hrange : (m : Int) * (a % b) + i < m * b := by nlinarith
    have hnonneg : 0 ≤ (m : Int) * (a % b) + i := by positivity
    rw [← Int.emod_add_emod, hstart]
    push_cast
    exact Int.emod_eq_of_lt hnonneg hrange
  unfold slot
  rw [hstart, hsum]
  have hprod : 0 ≤ (m : Int) * (a % b) := by positivity
  omega

variable {β γ : Type} {N : Nat}

/-- After `n` entries the ring's slots stand for the last `N` of them. -/
def Holds (R : β → γ → Prop) (ring : Vector β N) (n : Int) (content : Int → γ) : Prop :=
  ∀ q, n - N ≤ q → q < n → ∀ h : slot N q < N, R ring[slot N q] (content q)

/-- A ring filled with one value stands for any run of it. -/
theorem Holds.replicate (R : β → γ → Prop) (x : β) (content : Int → γ)
    (h : ∀ q < 0, R x (content q)) : Holds R (Vector.replicate N x) 0 content := by
  intro q _ hq hs
  rw [Vector.getElem_replicate]
  exact h q hq

/-- One more entry: its own slot, and every slot still in reach. -/
theorem Holds.succ (R : β → γ → Prop) (ring : Vector β N) (n : Int) (content : Int → γ)
    (hnew : ∀ h : slot N n < N, R ring[slot N n] (content n))
    (hkept : ∀ q, n + 1 - N ≤ q → q < n → ∀ h : slot N q < N, R ring[slot N q] (content q)) :
    Holds R ring (n + 1) content := by
  intro q hlo hhi hs
  rcases Int.lt_or_eq_of_le (Int.lt_add_one_iff.mp hhi) with hq | rfl
  · exact hkept q hlo hq hs
  · exact hnew hs

/-- Writing the next entry into its slot leaves all others in reach. -/
theorem Holds.write {R : β → γ → Prop} {ring : Vector β N} {n : Int} {content : Int → γ}
    (h : Holds R ring n content) (x : β) (hx : R x (content n)) (hs : slot N n < N) :
    Holds R (ring.set (slot N n) x) (n + 1) content := by
  apply Holds.succ
  · intro _
    rw [Vector.getElem_set_self]
    exact hx
  · intro q hlo hhi hq
    have hne : slot N n ≠ slot N q := by
      intro he
      have := slot_inj N n q he (by omega) (by omega)
      omega
    rw [Vector.getElem_set_ne hs hq hne]
    exact h q (by omega) hhi hq

/-- Writing a block that starts at a multiple of its length and fits the ring whole. -/
theorem Holds.writeBlock {R : β → γ → Prop} {ring ring' : Vector β N} {n : Int}
    {content : Int → γ} (h : Holds R ring n content) (m : Nat) (hN : m ∣ N)
    (hn : (m : Int) ∣ n)
    (hblock : ∀ i < m, ∀ hi : slot N n + i < N, R ring'[slot N n + i] (content (n + i)))
    (hkept : ∀ j, ¬(slot N n ≤ j ∧ j < slot N n + m) → ∀ hj : j < N, ring'[j] = ring[j]) :
    Holds R ring' (n + m) content := by
  intro q hlo hhi hs
  have hpos : 0 < N := by omega
  by_cases hq : n ≤ q
  · obtain ⟨i, rfl⟩ : ∃ i : Nat, q = n + i := ⟨(q - n).toNat, by omega⟩
    have hadd := slot_add N m n hN hn i (by omega) hpos
    simp only [hadd] at hs ⊢
    exact hblock i (by omega) hs
  · have hout : ¬(slot N n ≤ slot N q ∧ slot N q < slot N n + m) := by
      rintro ⟨hle, hlt⟩
      have hadd := slot_add N m n hN hn (slot N q - slot N n) (by omega) hpos
      have he : slot N q = slot N (n + ↑(slot N q - slot N n)) := by omega
      have := slot_inj N q _ he (by omega) (by omega)
      omega
    rw [hkept _ hout hs]
    exact h q (by omega) (by omega) hs

end RingBuffer
