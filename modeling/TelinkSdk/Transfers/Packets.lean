import Mathlib.Data.List.Basic

/-! Transfers in packets of a fixed size. The sender cuts its data into packets, of which all but
the last are full, and the receiver takes packets until one is short or it has what it wants.
-/

namespace Transfers

variable {α : Type*} {size : Nat}

/-- Packet number `i` of a transfer. Behind the data packets are empty. -/
def packet (size : Nat) (data : List α) (i : Nat) : List α := (data.drop (size * i)).take size

/-- The first `count` packets of a transfer. -/
def packets (size : Nat) (data : List α) (count : Nat) : List (List α) :=
  (List.range count).map (packet size data)

/-- What a receiver takes that wants `want` elements. -/
def receive (size : Nat) : Nat → List (List α) → List α
  | _, [] => []
  | want, p :: rest =>
      if p.length < size ∨ want ≤ p.length then p else p ++ receive size (want - p.length) rest

theorem packet_zero (size : Nat) (data : List α) : packet size data 0 = data.take size := by
  rw [packet, Nat.mul_zero, List.drop_zero]

/-- The later packets are those of the data behind the first one. -/
theorem packet_succ (size : Nat) (data : List α) (i : Nat)
    : packet size data (i + 1) = packet size (data.drop size) i := by
  rw [packet, packet, List.drop_drop, Nat.mul_succ, Nat.add_comm]

theorem packets_succ (size : Nat) (data : List α) (count : Nat)
    : packets size data (count + 1) = data.take size :: packets size (data.drop size) count := by
  simp only [packets, List.range_succ_eq_map, List.map_cons, List.map_map, packet_zero]
  congr 1
  exact List.map_congr_left fun i _ => packet_succ size data i

@[simp]
theorem packets_length (size : Nat) (data : List α) (count : Nat)
    : (packets size data count).length = count := by
  simp [packets]

/-- A transfer goes on with the packets of the data that are left. -/
theorem packets_add (size : Nat) (data : List α) (first later : Nat)
    : packets size data (first + later)
      = packets size data first ++ packets size (data.drop (size * first)) later := by
  simp only [packets, List.range_add, List.map_append, List.map_map]
  congr 1
  refine List.map_congr_left fun i _ => ?_
  simp only [Function.comp_apply, packet, List.drop_drop, Nat.mul_add]

/-- A receiver that wants no less than there is gets all of it from enough packets, by induction on
their number.
-/
theorem receive_packets {want count : Nat} {data : List α}
    (wants : data.length ≤ want) (enough : data.length < size * count ∨ want ≤ size * count)
    : receive size want (packets size data count) = data := by
  induction count generalizing data want with
  | zero =>
      have none : data = [] := List.eq_nil_of_length_eq_zero (by omega)
      subst none
      rfl
  | succ count ih =>
      rw [packets_succ, receive]
      by_cases last : (data.take size).length < size ∨ want ≤ (data.take size).length
      · rw [if_pos last]
        apply List.take_of_length_le
        rw [List.length_take] at last
        omega
      · have long : size ≤ data.length := by
          rw [List.length_take] at last
          omega
        have full : (data.take size).length = size := List.length_take_of_le long
        rw [full] at last
        have rest : data.length - size < size * count ∨ want - size ≤ size * count := by
          rw [Nat.mul_succ] at enough
          omega
        rw [if_neg (by rw [full]; exact last), full, ih (by rw [List.length_drop]; omega)
          (by rw [List.length_drop]; exact rest), List.take_append_drop]

end Transfers
