-- What the parts of the x64 heap do to the list of blocks: a block is cut in two, two blocks
-- become one, a block grows over the bytes before the next one, and a block is taken or given
-- back.
import Uaos.X64Blocks

namespace uaos.x64

section edits

variable {h : Heap} {stop p a nb : Nat} {b c : Blk}

namespace Heap

lemma link_lt {a : Nat} (h : a < 2 ^ 64) : link stop a < 2 ^ 64 := by
  unfold link
  split <;> omega

lemma Header.blk_end (hb : Header h stop p a b) (hlt : a + b.size < 2 ^ 64) :
    h.x64_blk_end a = a + b.size := by rw [x64_blk_end, hb.size, u64_of_lt hlt]

lemma cut_edit (hb : Header h stop p a b) (ha : 16 ∣ a) (hnb : 16 ∣ nb) (hs : 16 ∣ b.size)
    (hlead : a + 48 ≤ nb) (hroom : nb + 48 ≤ a + b.size) (hstop : a + b.size ≤ stop)
    (hlt : stop ≤ 2 ^ 32) : Edit h (h.cut a nb (nb - a)) stop p a (a + b.size)
      [⟨nb - a, b.used, b.owner⟩, ⟨a + b.size - nb, false, 0⟩] := by
  have hend : h.x64_blk_end a = a + b.size := Header.blk_end hb (by omega)
  have hsub : sub64 (a + b.size) nb = a + b.size - nb := sub64_of_le (by omega) (by omega)
  have hnext : link stop (a + b.size) < 2 ^ 64 := link_lt (by omega)
  have hlink : link stop nb = nb := if_neg (by omega)
  have hlead' : a + (nb - a) = nb := by omega
  have hroom' : nb + (a + b.size - nb) = a + b.size := by omega
  unfold cut
  simp (disch := first | assumption | decide | omega) only
    [hend, hsub, get_put_same, get_put_field, get_put_apart, hb.next]
  refine ⟨⟨?_, ?_, trivial⟩, fun x hx hout hne => ?_, fun hne => ?_⟩
  · constructor <;>
      simp (disch := first | assumption | decide | omega) only
        [get_put_same, get_put_field, get_put_apart, get_link_back, hb.magic, hb.prev, hb.owner,
          hb.flags, hlead', hlink, Blk.flags]
  · constructor <;>
      simp (disch := first | assumption | decide | omega) only
        [get_put_same, get_put_field, get_put_apart, get_link_back, hlead', hroom', Blk.flags]
    rfl
  · simp (disch := first | assumption | omega) only [word_put, word_link_back]
  · have hpos : a + b.size ≠ 0 := by omega
    simp (disch := first | assumption | omega) only
      [get_put_apart, get_link_back_prev, last_at, hlead']

lemma join_edit (hb : Header h stop p a b) (hc : Header h stop a (a + b.size) c) (ha : 16 ∣ a)
    (hbs : 16 ∣ b.size) (hcs : 16 ∣ c.size) (hbmin : 48 ≤ b.size) (hcmin : 48 ≤ c.size)
    (hstop : a + b.size + c.size ≤ stop) (hlt : stop ≤ 2 ^ 32) :
    Edit h (h.join a (a + b.size)) stop p a (a + b.size + c.size)
      [⟨b.size + c.size, b.used, b.owner⟩] := by
  have hsum : u64 (b.size + c.size) = b.size + c.size := u64_of_lt (by omega)
  have hnext : link stop (a + b.size + c.size) < 2 ^ 64 := link_lt (by omega)
  have hassoc : a + (b.size + c.size) = a + b.size + c.size := by omega
  unfold join
  simp (disch := first | assumption | decide | omega) only
    [hb.size, hc.size, hsum, get_put_apart, hc.next]
  refine ⟨⟨?_, trivial⟩, fun x hx hout hne => ?_, fun hne => ?_⟩
  · constructor <;>
      simp (disch := first | assumption | decide | omega) only
        [get_put_same, get_put_field, get_put_apart, get_link_back, hb.magic, hb.prev, hb.owner,
          hb.flags, hassoc, Blk.flags]
  · simp (disch := first | assumption | omega) only [word_put, word_link_back]
  · have hpos : a + b.size + c.size ≠ 0 := by omega
    simp (disch := first | assumption | omega) only [get_put_apart, get_link_back_prev, last_at]

/-- A block of which 32 bytes go to the block before it. -/
lemma absorb_edit (hc : Header h stop p a c) (hb : Header h stop a (a + c.size) b) (ha : 16 ∣ a)
    (hcs : 16 ∣ c.size) (hbs : 16 ∣ b.size) (hcmin : 48 ≤ c.size) (hroom : 80 ≤ b.size)
    (hpos : 0 < a) (hstop : a + c.size + b.size ≤ stop) (hlt : stop ≤ 2 ^ 32) :
    Edit h (h.x64_absorb_sliver (a + c.size) (a + c.size + 32)) stop p a (a + c.size + b.size)
      [⟨c.size + 32, c.used, c.owner⟩, ⟨b.size - 32, false, 0⟩] := by
  have hend : u64 (a + c.size + b.size) = a + c.size + b.size := u64_of_lt (by omega)
  have hsub : sub64 (a + c.size + b.size) (a + c.size + 32) = b.size - 32 := by
    rw [sub64_of_le (by omega) (by omega)]
    omega
  have hsub' : sub64 (a + c.size + 32) (a + c.size) = 32 := by
    rw [sub64_of_le (by omega) (by omega)]
    omega
  have hnext : link stop (a + c.size + b.size) < 2 ^ 64 := link_lt (by omega)
  have hsum : u64 (c.size + 32) = c.size + 32 := u64_of_lt (by omega)
  have ha0 : a ≠ 0 := by omega
  have hassoc : a + (c.size + 32) = a + c.size + 32 := by omega
  have hassoc' : a + c.size + 32 + (b.size - 32) = a + c.size + b.size := by omega
  have hlink : link stop (a + c.size + 32) = a + c.size + 32 := if_neg (by omega)
  unfold x64_absorb_sliver x64_blk_end
  simp (disch := first | assumption | decide | omega) only
    [hend, hsub, hsub', get_put_same, get_put_field, get_put_apart, get_put_over, get_link_back,
      hb.next, hb.size, hb.prev, hc.size, ne_eq, ha0, not_false_eq_true, if_true, hsum]
  refine ⟨⟨?_, ?_, trivial⟩, fun x hx hout hne => ?_, fun hne => ?_⟩
  · constructor <;>
      simp (disch := first | assumption | decide | omega) only
        [get_put_same, get_put_field, get_put_apart, get_link_back, get_set_live, hc.magic,
          hc.prev, hc.owner, hc.flags, hassoc, hlink, Blk.flags]
  · constructor <;>
      simp (disch := first | assumption | decide | omega) only
        [get_put_same, get_put_field, get_put_apart, get_put_under, get_link_back, get_set_live,
          hassoc, hassoc', Blk.flags]
    rfl
  · simp (disch := first | assumption | omega) only [word_put, word_link_back, set_live_mem]
  · have hpos' : a + c.size + b.size ≠ 0 := by omega
    simp (disch := first | assumption | omega) only
      [get_put_apart, get_link_back_prev, get_set_live, last_at, hassoc]

lemma absorb_first (hc : Header h stop p a c) (hb : Header h stop a (a + c.size) b)
    (hcmin : 48 ≤ c.size) (hpos : 0 < a) (hroom : 80 ≤ b.size)
    (hend : a + c.size + b.size < 2 ^ 64) :
    (h.x64_absorb_sliver (a + c.size) (a + c.size + 32)).first = h.first ∧
    (h.x64_absorb_sliver (a + c.size) (a + c.size + 32)).live =
      if c.used then u64 (h.live + 32) else h.live := by
  have hsub : sub64 (a + c.size + 32) (a + c.size) = 32 := by
    rw [sub64_of_le (by omega) (by omega)]
    omega
  have ha0 : a ≠ 0 := by omega
  have hnext : link stop (a + c.size + b.size) < 2 ^ 64 := link_lt hend
  unfold x64_absorb_sliver
  simp (disch := first | assumption | decide | omega) only
    [get_put_same, get_put_field, get_put_apart, get_put_over, get_link_back, hsub, used,
      hb.next, hb.prev, hc.flags, ne_eq, ha0, not_false_eq_true, if_true, put_first, put_live,
      link_back_first, link_back_live, set_live_first, set_live_live]
  refine ⟨trivial, ?_⟩
  unfold Blk.flags
  cases c.used <;> rfl

/-- The first block loses its first 32 bytes. -/
lemma absorb_head (hb : Header h stop 0 a b) (ha : 16 ∣ a) (hbs : 16 ∣ b.size)
    (hroom : 80 ≤ b.size) (hstop : a + b.size ≤ stop) (hlt : stop ≤ 2 ^ 32) :
    Header (h.x64_absorb_sliver a (a + 32)) stop 0 (a + 32) ⟨b.size - 32, false, 0⟩ ∧
    (∀ x, 8 ∣ x → a + b.size ≤ x → x ≠ a + b.size + 16 →
      le64 (h.x64_absorb_sliver a (a + 32)).mem x = le64 h.mem x) ∧
    (a + b.size ≠ stop → (h.x64_absorb_sliver a (a + 32)).get .prev (a + b.size) = a + 32) ∧
    (h.x64_absorb_sliver a (a + 32)).first = a + 32 ∧
    (h.x64_absorb_sliver a (a + 32)).live = h.live := by
  have hend : u64 (a + b.size) = a + b.size := u64_of_lt (by omega)
  have hsub : sub64 (a + b.size) (a + 32) = b.size - 32 := by
    rw [sub64_of_le (by omega) (by omega)]
    omega
  have hnext : link stop (a + b.size) < 2 ^ 64 := link_lt (by omega)
  have hassoc : a + 32 + (b.size - 32) = a + b.size := by omega
  unfold x64_absorb_sliver x64_blk_end
  simp (disch := first | assumption | decide | omega) only
    [hend, hsub, get_put_same, get_put_field, get_put_over, get_link_back, hb.next, hb.size,
      hb.prev, ne_eq, not_true_eq_false, if_false, put_first, put_live, link_back_live,
      set_first_first, set_first_live, and_true]
  refine ⟨?_, fun x hx hout hxe => ?_, fun hend => ?_⟩
  · constructor <;>
      simp (disch := first | assumption | decide | omega) only
        [get_put_same, get_put_field, get_put_under, get_link_back, get_set_first, hassoc,
          Blk.flags]
    rfl
  · simp (disch := first | assumption | omega) only [word_put, word_link_back, set_first_mem]
  · have hpos : a + b.size ≠ 0 := by omega
    simp (disch := first | assumption | omega) only
      [get_put_apart, get_link_back_prev, get_set_first]

end Heap

end edits

end uaos.x64
