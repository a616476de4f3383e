import Rtype.Foundations.SlidingWindow
import Rtype.Rtnt.Session

/-!
# rtnt - The acknowledgement window

A session describes the sequence ids it has accepted by the greatest one and a
32-bit field for the ids just below it.  Every datagram it emits carries these
two words, and the peer forgets what they report, so they have to be exact.

Main results:

- Theorem {lit}`Session.WindowExact.updateAcknowledgeInfo`: a call keeps the
  window exact when its shift amount is below 32, or when the target machine
  shifts as intended.
- Theorem {lit}`Session.window_exact_iff`: over all sequences of accepted ids, on
  every target machine, the window is exact and the shifts are defined exactly
  when no id lies 32 above the greatest one before it.
- Theorem {lit}`Session.isDuplicate_advanceWindow`: an id that is recognized as a
  duplicate stays recognized when the window moves.

Current gaps:

- None.
-/

namespace Rtype.Rtnt

open SlidingWindow

/-! ## Bits of a word -/

private theorem shiftLeft_toBitVec (a n : UInt32) (hn : n.toNat < 32) :
    (a <<< n).toBitVec = a.toBitVec <<< n.toNat := by
  rw [UInt32.toBitVec_shiftLeft, BitVec.shiftLeft_eq']
  congr 1
  simp
  omega

/-- The test on a word reads the bit of its binary representation. -/
theorem hasBit_eq_getLsbD (word : UInt32) {i : ℕ} (hi : i < 32) :
    hasBit word i = word.toBitVec.getLsbD i := by
  have hofNat : (UInt32.ofNat i).toNat = i := by
    rw [UInt32.toNat_ofNat']
    omega
  have hpow : (1 <<< UInt32.ofNat i : UInt32).toBitVec = BitVec.twoPow 32 i := by
    rw [shiftLeft_toBitVec _ _ (by omega), hofNat, BitVec.twoPow_eq]
    rfl
  rw [hasBit, Bool.eq_iff_iff, bne_iff_ne, ne_eq, ← UInt32.toBitVec_inj,
    UInt32.toBitVec_and, hpow, BitVec.and_twoPow]
  by_cases h : word.toBitVec.getLsbD i
  · simp only [h, if_true, iff_true]
    intro h0
    have hbit := congrArg (fun v => v.getLsbD i) h0
    simp [hi] at hbit
  · simp [h]

@[simp]
theorem hasBit_zero (i : ℕ) : hasBit 0 i = false := by
  simp [hasBit]

theorem hasBit_shiftLeft (word n : UInt32) (hn : n.toNat < 32) {i : ℕ} (hi : i < 32) :
    hasBit (word <<< n) i = (decide (n.toNat ≤ i) && hasBit word (i - n.toNat)) := by
  rw [hasBit_eq_getLsbD _ hi, hasBit_eq_getLsbD _ (by omega), shiftLeft_toBitVec _ _ hn,
    BitVec.getLsbD_shiftLeft]
  by_cases h : n.toNat ≤ i
  · simp [h, hi]
  · simp [h, hi]

theorem hasBit_or (v w : UInt32) {i : ℕ} (hi : i < 32) :
    hasBit (v ||| w) i = (hasBit v i || hasBit w i) := by
  rw [hasBit_eq_getLsbD _ hi, hasBit_eq_getLsbD _ hi, hasBit_eq_getLsbD _ hi,
    UInt32.toBitVec_or, BitVec.getLsbD_or]

theorem hasBit_one_shiftLeft (n : UInt32) (hn : n.toNat < 32) {i : ℕ} (hi : i < 32) :
    hasBit (1 <<< n) i = decide (i = n.toNat) := by
  rw [hasBit_shiftLeft 1 n hn hi]
  by_cases h : n.toNat ≤ i
  · rw [hasBit_eq_getLsbD _ (by omega)]
    simp [h]
    omega
  · simp [h]
    omega

/-- The ids that a loop over the bits of a window collects. -/
theorem mem_windowIds {head bitfield id : UInt32} {first : ℕ} :
    id ∈ windowIds head bitfield first ↔
      ∃ i, first ≤ i ∧ i < 32 ∧ hasBit bitfield i = true ∧ id = head - (UInt32.ofNat i + 1) := by
  simp only [windowIds, List.mem_filterMap, List.mem_range', Option.ite_none_right_eq_some,
    Option.some.injEq]
  constructor
  · rintro ⟨i, ⟨k, hk, rfl⟩, hbit, rfl⟩
    exact ⟨first + 1 * k, by omega, by omega, hbit, rfl⟩
  · rintro ⟨i, hfirst, hi, hbit, rfl⟩
    exact ⟨i, ⟨i - first, by omega, by omega⟩, hbit, rfl⟩

/-- The position of an id below the head, for the loops that subtract. -/
theorem sub_ofNat_add_one {head id : UInt32} {i : ℕ} (h : id.toNat + (i + 1) = head.toNat) :
    head - (UInt32.ofNat i + 1) = id := by
  apply UInt32.toNat_inj.mp
  have hhead := head.toNat_lt
  have hstep : (UInt32.ofNat i + 1).toNat = i + 1 := by
    rw [UInt32.toNat_add, UInt32.toNat_ofNat']
    simp
    omega
  rw [UInt32.toNat_sub_of_le _ _ (by rw [UInt32.le_iff_toNat_le]; omega), hstep]
  omega

/-- The mark that a call sets for a distance between 1 and 32. -/
theorem hasBit_mark {n : UInt32} (hpos : 0 < n.toNat) (hn : n.toNat ≤ 32) {i : ℕ}
    (hi : i < 32) : hasBit (1 <<< (n - 1)) i = decide (i + 1 = n.toNat) := by
  have hpred : (n - 1).toNat = n.toNat - 1 := by
    exact UInt32.toNat_sub_of_le _ _ hpos
  rw [hasBit_one_shiftLeft _ (by omega) hi, hpred, decide_eq_decide]
  omega

namespace Session

/-! ## Exactness -/

/-- The accepted sequence ids, as a set of numbers. -/
def idSet (ids : List UInt32) : Set ℕ :=
  {n | ∃ id ∈ ids, id.toNat = n}

theorem idSet_append (ids : List UInt32) (id : UInt32) :
    idSet (ids ++ [id]) = insert id.toNat (idSet ids) := by
  ext n
  simp only [idSet, List.mem_append, List.mem_singleton, Set.mem_ofPred_eq, Set.mem_insert_iff]
  grind

/-- The window of a session describes exactly the accepted sequence ids. -/
def WindowExact (s : Session) (ids : List UInt32) : Prop :=
  s.hasReceivedRemotePacket = true ∧
    Represents 32 (idSet ids) s.remoteAcknowledgeId.toNat
      (fun i => hasBit s.remoteAcknowledgeBitfield i = true)

theorem toNat_distance {a b : UInt32} (h : a < b) :
    (b - a).toNat = b.toNat - a.toNat :=
  UInt32.toNat_sub_of_le _ _ (UInt32.le_of_lt h)

/-- The bits after a move by at most the width, on a machine that shifts right. -/
private theorem hasBit_moved {target : LeftShift} {word n : UInt32} (hpos : 0 < n.toNat)
    (hn : n.toNat ≤ 32) (hshift : n.toNat < 32 ∨ target = .intended) {i : ℕ} (hi : i < 32) :
    hasBit (target.shl word n ||| 1 <<< (n - 1)) i = true ↔
      i + 1 = n.toNat ∨ n.toNat ≤ i ∧ hasBit word (i - n.toNat) = true := by
  rw [hasBit_or _ _ hi, hasBit_mark hpos hn hi]
  by_cases hlt : n.toNat < 32
  · rw [target.shl_eq _ _ (by rw [UInt32.lt_iff_toNat_lt]; simpa using hlt),
      hasBit_shiftLeft _ _ hlt hi]
    simp only [Bool.or_eq_true, Bool.and_eq_true, decide_eq_true_eq]
    exact or_comm
  · have hsame : ¬ n < 32 := by
      rw [UInt32.lt_iff_toNat_lt]
      simpa using hlt
    rcases hshift with h | rfl
    · omega
    · simp only [LeftShift.intended, if_neg hsame, hasBit_zero, Bool.false_or,
        decide_eq_true_eq]
      omega

/-- A move of the window keeps it exact when the shift is defined or intended. -/
theorem WindowExact.advanceWindow (target : LeftShift) {s : Session} {ids : List UInt32}
    {id : UInt32} (h : s.WindowExact ids) (hid : s.remoteAcknowledgeId < id)
    (hshift : (id - s.remoteAcknowledgeId).toNat ≠ 32 ∨ target = .intended) :
    (s.advanceWindow target id).WindowExact (ids ++ [id]) := by
  have hdist := toNat_distance hid
  have hlt : s.remoteAcknowledgeId.toNat < id.toNat := hid
  unfold WindowExact
  rw [idSet_append]
  simp only [Session.advanceWindow]
  split_ifs with hfar
  · have hfar' : 32 < (id - s.remoteAcknowledgeId).toNat := hfar
    refine ⟨h.1, h.2.advance hlt fun i hi => ?_⟩
    simp only [hasBit_zero, Bool.false_eq_true, false_iff]
    omega
  · have hnear : (id - s.remoteAcknowledgeId).toNat ≤ 32 := by
      simpa [UInt32.lt_iff_toNat_lt] using hfar
    refine ⟨h.1, h.2.advance hlt fun i hi => ?_⟩
    rw [hasBit_moved (by omega) hnear (hshift.imp_left fun hne => by omega) hi, hdist]

/-- An id behind the head keeps the window exact. -/
theorem WindowExact.recordLate {s : Session} {ids : List UInt32} {id : UInt32}
    (h : s.WindowExact ids) (hid : id < s.remoteAcknowledgeId) :
    (s.recordLate id).WindowExact (ids ++ [id]) := by
  have hdist := toNat_distance hid
  have hlt : id.toNat < s.remoteAcknowledgeId.toNat := hid
  have hfar : ¬ s.remoteAcknowledgeId - id ≤ 32 →
      Represents 32 (insert id.toNat (idSet ids)) s.remoteAcknowledgeId.toNat
        (fun i => hasBit s.remoteAcknowledgeBitfield i = true) := by
    intro hbig
    have hbig' : 32 < (s.remoteAcknowledgeId - id).toNat := by
      simpa [UInt32.le_iff_toNat_le] using hbig
    refine h.2.record hlt fun i hi => ?_
    simp only [iff_self_or]
    omega
  unfold WindowExact
  rw [idSet_append]
  simp only [Session.recordLate]
  split_ifs with hnear hold
  · have hnear' : (s.remoteAcknowledgeId - id).toNat ≤ 32 := hnear
    refine ⟨h.1, h.2.record hlt fun i hi => ?_⟩
    rw [hasBit_or _ _ hi, hasBit_mark (by omega) hnear' hi, Bool.or_eq_true,
      decide_eq_true_eq]
    exact or_congr_right (by omega)
  · exact ⟨h.1, hfar hnear⟩
  · exact ⟨h.1, hfar hnear⟩
  · exact ⟨h.1, hfar hnear⟩

/-- A call shifts the bitfield by the distance to the head. -/
theorem windowShift_eq_some {s : Session} {id : UInt32}
    (hhas : s.hasReceivedRemotePacket = true) (hid : s.remoteAcknowledgeId < id)
    (hnear : (id - s.remoteAcknowledgeId).toNat ≤ 32) :
    s.windowShift id = some (id - s.remoteAcknowledgeId) := by
  have hnear' : ¬ id - s.remoteAcknowledgeId > 32 := by
    simpa [UInt32.lt_iff_toNat_lt] using hnear
  exact if_pos ⟨hhas, hid, hnear'⟩

/-- A call keeps the window exact when its shift is defined or intended. -/
theorem WindowExact.updateAcknowledgeInfo {target : LeftShift} {s : Session}
    {ids : List UInt32} {id : UInt32} (h : s.WindowExact ids)
    (hshift : (∀ n ∈ s.windowShift id, n < 32) ∨ target = .intended) :
    (s.updateAcknowledgeInfo target id).WindowExact (ids ++ [id]) := by
  have hhas := h.1
  simp only [Session.updateAcknowledgeInfo, hhas, Bool.not_true, Bool.false_eq_true, if_false]
  split_ifs with hgt hlt
  · refine h.advanceWindow target hgt (hshift.imp_left fun hdef => ?_)
    intro h32
    have hn := hdef _ (windowShift_eq_some hhas hgt h32.le)
    rw [UInt32.lt_iff_toNat_lt, h32] at hn
    simp at hn
  · exact h.recordLate hlt
  · have heq : id = s.remoteAcknowledgeId := by
      apply UInt32.toNat_inj.mp
      have h1 : ¬ s.remoteAcknowledgeId.toNat < id.toNat := hgt
      have h2 : ¬ id.toNat < s.remoteAcknowledgeId.toNat := hlt
      omega
    refine ⟨rfl.trans hhas, ?_⟩
    rw [idSet_append, heq]
    exact h.2.again

/-- The first call opens the window. -/
theorem windowExact_first (target : LeftShift) {s : Session} (id : UInt32)
    (hhas : s.hasReceivedRemotePacket = false) (hbits : s.remoteAcknowledgeBitfield = 0) :
    (s.updateAcknowledgeInfo target id).WindowExact [id] := by
  have hset : idSet [id] = {id.toNat} := by
    ext n
    simp only [idSet, List.mem_singleton, Set.mem_ofPred_eq, Set.mem_singleton_iff]
    grind
  simp only [Session.updateAcknowledgeInfo, hhas, Bool.not_false, if_true]
  refine ⟨rfl, ?_⟩
  rw [hset]
  exact represents_singleton fun i _ => by simp [hbits]

/-- The window of a session that has accepted the given ids, which may be none. -/
def WindowTracks (s : Session) (ids : List UInt32) : Prop :=
  ids = [] ∧ s.hasReceivedRemotePacket = false ∧ s.remoteAcknowledgeBitfield = 0 ∨
    s.WindowExact ids

theorem windowTracks_new (self : ℕ) (clock : Stream' Time) :
    (new self clock).WindowTracks [] :=
  Or.inl ⟨rfl, rfl, rfl⟩

/-- The id lies exactly one window width above the greatest id before it. -/
def JumpsBy32 (seen : List UInt32) (id : UInt32) : Prop :=
  ∃ m ∈ seen, (∀ x ∈ seen, x ≤ m) ∧ id.toNat = m.toNat + 32

-- bounded by the list: the instances for finite types would go through all ids
instance (seen : List UInt32) (id : UInt32) : Decidable (JumpsBy32 seen id) :=
  decidable_of_iff
    (seen.any fun m => (seen.all fun x => decide (x ≤ m)) && decide (id.toNat = m.toNat + 32))
    (by simp [JumpsBy32])

/-- A call shifts by an undefined amount exactly when its id jumps by 32. -/
theorem WindowTracks.windowShift_lt_iff {s : Session} {seen : List UInt32} {id : UInt32}
    (h : s.WindowTracks seen) :
    (∀ n ∈ s.windowShift id, n < 32) ↔ ¬ JumpsBy32 seen id := by
  rcases h with ⟨rfl, hhas, -⟩ | h
  · simp [windowShift, hhas, JumpsBy32]
  · obtain ⟨⟨top, htop, htopNat⟩, hgreatest⟩ := h.2.greatest
    have htop' : top = s.remoteAcknowledgeId := UInt32.toNat_inj.mp htopNat
    have hupper : ∀ x ∈ seen, x ≤ s.remoteAcknowledgeId := fun x hx =>
      UInt32.le_iff_toNat_le.mpr (hgreatest ⟨x, hx, rfl⟩)
    constructor
    · rintro hdef ⟨m, hm, hmax, hid⟩
      have hhead : m = s.remoteAcknowledgeId :=
        UInt32.le_antisymm (hupper m hm) (htop' ▸ hmax top htop)
      have hgt : s.remoteAcknowledgeId < id := by
        rw [UInt32.lt_iff_toNat_lt, ← hhead]
        omega
      have hdist := toNat_distance hgt
      rw [← hhead] at hdist
      have hn := hdef _ (windowShift_eq_some h.1 hgt (by rw [← hhead]; omega))
      rw [UInt32.lt_iff_toNat_lt, ← hhead] at hn
      have h32 : (32 : UInt32).toNat = 32 := rfl
      omega
    · intro hjump n hn
      simp only [windowShift, Option.mem_def, Option.ite_none_right_eq_some] at hn
      obtain ⟨⟨-, hgt, hnear⟩, hsome⟩ := hn
      cases hsome
      have hdist := toNat_distance (show s.remoteAcknowledgeId < id from hgt)
      have hlt : s.remoteAcknowledgeId.toNat < id.toNat := hgt
      have hnear' : (id - s.remoteAcknowledgeId).toNat ≤ 32 := by
        simpa [UInt32.lt_iff_toNat_lt] using hnear
      by_contra hge
      have hge' : 32 ≤ (id - s.remoteAcknowledgeId).toNat := by
        simpa [UInt32.lt_iff_toNat_lt] using hge
      exact hjump ⟨top, htop, htop' ▸ hupper, by rw [htop']; omega⟩

/-- Every call that does not jump by 32 keeps the window exact; on a machine that
shifts as intended every call does. -/
theorem WindowTracks.updateAcknowledgeInfo {target : LeftShift} {s : Session}
    {seen : List UInt32} {id : UInt32} (h : s.WindowTracks seen)
    (hjump : ¬ JumpsBy32 seen id ∨ target = .intended) :
    (s.updateAcknowledgeInfo target id).WindowExact (seen ++ [id]) := by
  rcases h with ⟨rfl, hhas, hbits⟩ | hexact
  · exact windowExact_first target id hhas hbits
  · exact hexact.updateAcknowledgeInfo
      (hjump.imp_left (WindowTracks.windowShift_lt_iff (Or.inr hexact)).mpr)

/-! ## Runs of accepted ids -/

/-- A fresh session after the calls for a sequence of accepted ids. -/
def acceptAll (target : LeftShift) (self : ℕ) (clock : Stream' Time) (ids : List UInt32) :
    Session :=
  ids.foldl (updateAcknowledgeInfo target) (new self clock)

theorem acceptAll_append (target : LeftShift) (self : ℕ) (clock : Stream' Time)
    (ids : List UInt32) (id : UInt32) :
    acceptAll target self clock (ids ++ [id]) =
      (acceptAll target self clock ids).updateAcknowledgeInfo target id := by
  simp [acceptAll]

/-- The call for `id` after the ids `seen` shifts by a defined amount and leaves an
exact window. -/
def ExactCall (target : LeftShift) (self : ℕ) (clock : Stream' Time) (seen : List UInt32)
    (id : UInt32) : Prop :=
  (∀ n ∈ (acceptAll target self clock seen).windowShift id, n < 32) ∧
    (acceptAll target self clock (seen ++ [id])).WindowExact (seen ++ [id])

/-- A run without jumps by 32 keeps the window exact. -/
theorem windowTracks_acceptAll (target : LeftShift) (self : ℕ) (clock : Stream' Time)
    {ids : List UInt32} (hjump : ∀ seen id, seen ++ [id] <+: ids → ¬ JumpsBy32 seen id) :
    (acceptAll target self clock ids).WindowTracks ids := by
  induction ids using List.reverseRecOn with
  | nil => exact windowTracks_new self clock
  | append_singleton ids id ih =>
      have hpre := ih fun seen x hx => hjump seen x (hx.trans (List.prefix_append ids [id]))
      rw [acceptAll_append]
      exact Or.inr (hpre.updateAcknowledgeInfo (Or.inl (hjump ids id (List.prefix_refl _))))

/-- On every target machine and for every sequence of accepted ids, all calls are
exact when and only when no id jumps by 32. -/
theorem window_exact_iff (target : LeftShift) (self : ℕ) (clock : Stream' Time)
    (ids : List UInt32) :
    (∀ seen id, seen ++ [id] <+: ids → ExactCall target self clock seen id) ↔
      ∀ seen id, seen ++ [id] <+: ids → ¬ JumpsBy32 seen id := by
  constructor
  · intro hexact seen id hpre
    have htracks : (acceptAll target self clock seen).WindowTracks seen := by
      rcases List.eq_nil_or_concat' seen with rfl | ⟨before, last, rfl⟩
      · exact windowTracks_new self clock
      · have hbefore : before ++ [last] <+: ids :=
          (List.prefix_append (before ++ [last]) [id]).trans hpre
        exact Or.inr (hexact before last hbefore).2
    exact htracks.windowShift_lt_iff.mp (hexact seen id hpre).1
  · intro hjump seen id hpre
    have hseen : seen <+: ids := (List.prefix_append seen [id]).trans hpre
    have htracks := windowTracks_acceptAll target self clock
      fun before x hx => hjump before x (hx.trans hseen)
    refine ⟨htracks.windowShift_lt_iff.mpr (hjump seen id hpre), ?_⟩
    rw [acceptAll_append]
    exact htracks.updateAcknowledgeInfo (Or.inl (hjump seen id hpre))

/-- After the ids 0, 1 and 33 the field still holds the bit of id 0 where the bit of
id 32 belongs: the amount is 32, and x86 does not shift at all. -/
theorem window_inexact_after_jump :
    ¬ ∀ (target : LeftShift) (self : ℕ) (clock : Stream' Time) (ids seen : List UInt32)
      (id : UInt32), seen ++ [id] <+: ids → ExactCall target self clock seen id := by
  intro h
  have hcall := h .x86 0 (Stream'.const 0) [0, 1, 33] [0, 1] 33 (List.prefix_refl _)
  have hhead : (acceptAll .x86 0 (Stream'.const 0) [0, 1, 33]).remoteAcknowledgeId = 33 := by
    decide
  have hnone : ∀ x ∈ ([0, 1, 33] : List UInt32), x.toNat + (0 + 1) ≠ (33 : UInt32).toNat := by
    simp
  obtain ⟨n, ⟨x, hx, rfl⟩, hsum⟩ := (hcall.2.2.bit_iff 0 (by decide)).mp (by decide)
  exact hnone x hx (hhead ▸ hsum)

/-! ## Duplicates -/

/-- The bit that the duplicate test reads for an id behind the head. -/
theorem distance_sub_one {id head : UInt32} (h : id < head) :
    head - id - 1 = UInt32.ofNat (head.toNat - id.toNat - 1) := by
  have hdist := toNat_distance h
  have hlt : id.toNat < head.toNat := h
  have hhead := head.toNat_lt
  have hone : (1 : UInt32).toNat ≤ (head - id).toNat := by
    rw [hdist]
    exact Nat.sub_pos_of_lt hlt
  apply UInt32.toNat_inj.mp
  rw [UInt32.toNat_sub_of_le _ _ hone, hdist, UInt32.toNat_ofNat', Nat.mod_eq_of_lt (by omega)]
  rfl

theorem lt_of_not_gt_of_ne {id head : UInt32} (hgt : ¬ id > head) (hne : ¬ id = head) :
    id < head := by
  have hgt' : ¬ head.toNat < id.toNat := hgt
  have hne' : id.toNat ≠ head.toNat := fun h => hne (UInt32.toNat_inj.mp h)
  rw [UInt32.lt_iff_toNat_lt]
  omega

/-- What the duplicate test checks: the head, the bit of an id inside the window,
and the history for an id behind it. -/
theorem isDuplicate_iff {s : Session} {id : UInt32} :
    s.isDuplicate id = true ↔ s.hasReceivedRemotePacket = true ∧
      (id = s.remoteAcknowledgeId ∨
        (∃ i < 32, id.toNat + (i + 1) = s.remoteAcknowledgeId.toNat ∧
          hasBit s.remoteAcknowledgeBitfield i = true) ∨
        id.toNat + 32 < s.remoteAcknowledgeId.toNat ∧ id ∈ s.oldPacketHistory) := by
  simp only [isDuplicate]
  split_ifs with hhas hhead hgt hnear
  · simp only [Bool.not_eq_true'] at hhas
    simp [hhas]
  · simp only [beq_iff_eq] at hhead
    simp only [Bool.not_eq_true', Bool.not_eq_false] at hhas
    simp [hhas, hhead]
  · have hgt' : s.remoteAcknowledgeId.toNat < id.toNat := hgt
    simp only [beq_iff_eq] at hhead
    simp only [hhead, false_or, false_iff]
    rintro ⟨-, ⟨i, -, hsum, -⟩ | ⟨hfar, -⟩⟩ <;> omega
  · simp only [beq_iff_eq] at hhead
    simp only [Bool.not_eq_true', Bool.not_eq_false] at hhas
    have hlt := lt_of_not_gt_of_ne hgt hhead
    have hlt' : id.toNat < s.remoteAcknowledgeId.toNat := hlt
    have hdist := toNat_distance hlt
    have hnear' : (s.remoteAcknowledgeId - id).toNat ≤ 32 := hnear
    rw [distance_sub_one hlt]
    simp only [hhas, hhead, true_and, false_or]
    constructor
    · intro hbit
      exact Or.inl ⟨_, by omega, by omega, hbit⟩
    · rintro (⟨i, hi, hsum, hbit⟩ | ⟨hfar, -⟩)
      · rwa [show s.remoteAcknowledgeId.toNat - id.toNat - 1 = i by omega]
      · omega
  · simp only [beq_iff_eq] at hhead
    simp only [Bool.not_eq_true', Bool.not_eq_false] at hhas
    have hlt := lt_of_not_gt_of_ne hgt hhead
    have hlt' : id.toNat < s.remoteAcknowledgeId.toNat := hlt
    have hdist := toNat_distance hlt
    have hfar : 32 < (s.remoteAcknowledgeId - id).toNat := by
      simpa [UInt32.le_iff_toNat_le] using hnear
    simp only [hhas, hhead, true_and, false_or, List.contains_iff_mem]
    constructor
    · intro hmem
      exact Or.inr ⟨by omega, hmem⟩
    · rintro (⟨i, hi, hsum, -⟩ | ⟨-, hmem⟩)
      · omega
      · exact hmem

/-- A position of a window whose id lies below the head is collected by the loops. -/
theorem mem_windowIds_of_toNat {head bitfield id : UInt32} {i first : ℕ} (hfirst : first ≤ i)
    (hi : i < 32) (hbit : hasBit bitfield i = true) (hsum : id.toNat + (i + 1) = head.toNat) :
    id ∈ windowIds head bitfield first :=
  mem_windowIds.mpr ⟨i, hfirst, hi, hbit, (sub_ofNat_add_one hsum).symm⟩

/-- Every duplicate stays one when the window moves, on every target machine: what
leaves the window enters the history. -/
theorem isDuplicate_advanceWindow (target : LeftShift) {s : Session} {id r : UInt32}
    (hid : s.remoteAcknowledgeId < id) (hr : s.isDuplicate r = true) :
    (s.advanceWindow target id).isDuplicate r = true := by
  have hdist := toNat_distance hid
  have hlt : s.remoteAcknowledgeId.toNat < id.toNat := hid
  rw [isDuplicate_iff] at hr ⊢
  obtain ⟨hhas, hr⟩ := hr
  simp only [advanceWindow]
  split_ifs with hfar
  · have hfar' : 32 < (id - s.remoteAcknowledgeId).toNat := hfar
    refine ⟨hhas, Or.inr (Or.inr ?_)⟩
    simp only [List.mem_append, List.mem_singleton]
    rcases hr with rfl | ⟨i, hi, hsum, hbit⟩ | ⟨hold, hmem⟩
    · exact ⟨by omega, Or.inr rfl⟩
    · exact ⟨by omega, Or.inl (Or.inr (mem_windowIds_of_toNat (Nat.zero_le i) hi hbit hsum))⟩
    · exact ⟨by omega, Or.inl (Or.inl hmem)⟩
  · have hnear : (id - s.remoteAcknowledgeId).toNat ≤ 32 := by
      simpa [UInt32.lt_iff_toNat_lt] using hfar
    refine ⟨hhas, Or.inr ?_⟩
    simp only [List.mem_append]
    rcases hr with rfl | ⟨i, hi, hsum, hbit⟩ | ⟨hold, hmem⟩
    · refine Or.inl ⟨(id - s.remoteAcknowledgeId).toNat - 1, by omega, by omega, ?_⟩
      rw [hasBit_or _ _ (by omega), hasBit_mark (by omega) hnear (by omega)]
      simp only [Bool.or_eq_true, decide_eq_true_eq]
      exact Or.inr (by omega)
    · by_cases hstay : i + (id - s.remoteAcknowledgeId).toNat < 32
      · have hdef : id - s.remoteAcknowledgeId < 32 := by
          rw [UInt32.lt_iff_toNat_lt]
          exact lt_of_le_of_lt (Nat.le_add_left _ i) hstay
        refine Or.inl ⟨i + (id - s.remoteAcknowledgeId).toNat, hstay, by omega, ?_⟩
        rw [hasBit_or _ _ hstay, target.shl_eq _ _ hdef, hasBit_shiftLeft _ _ hdef hstay,
          Nat.add_sub_cancel, hbit]
        simp
      · exact Or.inr ⟨by omega, Or.inr (mem_windowIds_of_toNat (by omega) hi hbit hsum)⟩
    · exact Or.inr ⟨by omega, Or.inl hmem⟩

/-- The id that a call drops from a full history to make room for a late one. -/
def evicted (s : Session) (id : UInt32) : List UInt32 :=
  if s.hasReceivedRemotePacket ∧ id < s.remoteAcknowledgeId ∧
      ¬ s.remoteAcknowledgeId - id ≤ 32 ∧ id ∉ s.oldPacketHistory ∧
      MAX_PACKET_HISTORY_SIZE ≤ s.oldPacketHistory.length then
    s.oldPacketHistory.take 1
  else []

private theorem mem_tail_append {history : List UInt32} {id r : UInt32}
    (hr : r ∈ history) (hfirst : r ∉ history.take 1) : r ∈ (history ++ [id]).tail := by
  cases history with
  | nil => simp at hr
  | cons first rest =>
      simp only [List.take_succ_cons, List.take_zero, List.mem_singleton] at hfirst
      simp only [List.cons_append, List.tail_cons, List.mem_append]
      exact Or.inl ((List.mem_cons.mp hr).resolve_left hfirst)

/-- A duplicate that is not evicted stays one when a late id is recorded. -/
theorem isDuplicate_recordLate {s : Session} {id r : UInt32}
    (hid : id < s.remoteAcknowledgeId) (hr : s.isDuplicate r = true)
    (hkept : r ∉ s.evicted id) : (s.recordLate id).isDuplicate r = true := by
  rw [isDuplicate_iff] at hr ⊢
  obtain ⟨hhas, hr⟩ := hr
  simp only [recordLate]
  split_ifs with hnear hold hfull
  · refine ⟨hhas, hr.imp_right (Or.imp_left ?_)⟩
    rintro ⟨i, hi, hsum, hbit⟩
    exact ⟨i, hi, hsum, by rw [hasBit_or _ _ hi, hbit, Bool.true_or]⟩
  · exact ⟨hhas, hr⟩
  · refine ⟨hhas, hr.imp_right (Or.imp_right fun ⟨hfar, hmem⟩ => ⟨hfar, ?_⟩)⟩
    have hlen : MAX_PACKET_HISTORY_SIZE ≤ s.oldPacketHistory.length := by
      simpa [Nat.lt_succ_iff] using hfull
    rw [evicted, if_pos ⟨hhas, hid, hnear, hold, hlen⟩] at hkept
    exact mem_tail_append hmem hkept
  · exact ⟨hhas, hr.imp_right (Or.imp_right fun ⟨hfar, hmem⟩ =>
      ⟨hfar, List.mem_append_left _ hmem⟩)⟩

/-- A late id is a duplicate once it is recorded. -/
private theorem isDuplicate_self_recordLate {s : Session} {id : UInt32}
    (hhas : s.hasReceivedRemotePacket = true) (hid : id < s.remoteAcknowledgeId) :
    (s.recordLate id).isDuplicate id = true := by
  have hdist := toNat_distance hid
  have hlt : id.toNat < s.remoteAcknowledgeId.toNat := hid
  have hfar : ¬ s.remoteAcknowledgeId - id ≤ 32 →
      id.toNat + 32 < s.remoteAcknowledgeId.toNat := by
    intro h
    have h' : 32 < (s.remoteAcknowledgeId - id).toNat := by
      simpa [UInt32.le_iff_toNat_le] using h
    omega
  rw [isDuplicate_iff]
  simp only [recordLate]
  split_ifs with hnear hold hfull
  · have hnear' : (s.remoteAcknowledgeId - id).toNat ≤ 32 := hnear
    refine ⟨hhas, Or.inr (Or.inl ⟨s.remoteAcknowledgeId.toNat - id.toNat - 1, by omega, ?_, ?_⟩)⟩
    · dsimp only
      omega
    · rw [hasBit_or _ _ (by omega), hasBit_mark (by omega) hnear' (by omega), Bool.or_eq_true,
        decide_eq_true_eq]
      exact Or.inr (by omega)
  · exact ⟨hhas, Or.inr (Or.inr ⟨hfar hnear, hold⟩)⟩
  · refine ⟨hhas, Or.inr (Or.inr ⟨hfar hnear, ?_⟩)⟩
    have hne : s.oldPacketHistory ≠ [] := by
      rintro hnil
      simp [hnil, MAX_PACKET_HISTORY_SIZE] at hfull
    dsimp only
    rw [List.tail_append_of_ne_nil hne]
    exact List.mem_append_right _ (List.mem_singleton_self id)
  · exact ⟨hhas, Or.inr (Or.inr
      ⟨hfar hnear, List.mem_append_right _ (List.mem_singleton_self id)⟩)⟩

/-- After a call its own id is a duplicate. -/
theorem isDuplicate_self (target : LeftShift) (s : Session) (id : UInt32) :
    (s.updateAcknowledgeInfo target id).isDuplicate id = true := by
  by_cases hhas : s.hasReceivedRemotePacket = true
  · simp only [updateAcknowledgeInfo, hhas, Bool.not_true, Bool.false_eq_true, if_false]
    split_ifs with hgt hlt
    · refine isDuplicate_iff.mpr ?_
      simp only [advanceWindow]
      split_ifs
      · exact ⟨hhas, Or.inl rfl⟩
      · exact ⟨hhas, Or.inl rfl⟩
    · exact isDuplicate_self_recordLate hhas hlt
    · refine isDuplicate_iff.mpr ⟨hhas, Or.inl ?_⟩
      by_contra hne
      exact hlt (lt_of_not_gt_of_ne hgt hne)
  · simp only [Bool.not_eq_true] at hhas
    simp only [updateAcknowledgeInfo, hhas, Bool.not_false, if_true]
    exact isDuplicate_iff.mpr ⟨rfl, Or.inl rfl⟩

/-- The duplicate test reads only the window and the history. -/
theorem isDuplicate_congr {s s' : Session}
    (hhas : s'.hasReceivedRemotePacket = s.hasReceivedRemotePacket)
    (hhead : s'.remoteAcknowledgeId = s.remoteAcknowledgeId)
    (hbits : s'.remoteAcknowledgeBitfield = s.remoteAcknowledgeBitfield)
    (hhistory : s'.oldPacketHistory = s.oldPacketHistory) (id : UInt32) :
    s'.isDuplicate id = s.isDuplicate id := by
  simp only [isDuplicate, hhas, hhead, hbits, hhistory]

/-- A call forgets no duplicate but the one that it evicts. -/
theorem isDuplicate_updateAcknowledgeInfo (target : LeftShift) {s : Session} {id r : UInt32}
    (hr : s.isDuplicate r = true) (hkept : r ∉ s.evicted id) :
    (s.updateAcknowledgeInfo target id).isDuplicate r = true := by
  have hhas := (isDuplicate_iff.mp hr).1
  simp only [updateAcknowledgeInfo, hhas, Bool.not_true, Bool.false_eq_true, if_false]
  split_ifs with hgt hlt
  · exact isDuplicate_advanceWindow target hgt hr
  · exact isDuplicate_recordLate hlt hr hkept
  · exact hr

/-! ## Soundness -/

/-- The ids that a loop collects from an exact window were accepted. -/
theorem WindowExact.mem_of_mem_windowIds {s : Session} {ids : List UInt32} {r : UInt32}
    {first : ℕ} (h : s.WindowExact ids)
    (hr : r ∈ windowIds s.remoteAcknowledgeId s.remoteAcknowledgeBitfield first) : r ∈ ids := by
  obtain ⟨i, -, hi, hbit, rfl⟩ := mem_windowIds.mp hr
  obtain ⟨n, ⟨id, hid, rfl⟩, hsum⟩ := (h.2.bit_iff i hi).mp hbit
  rwa [sub_ofNat_add_one hsum]

/-- The head of an exact window was accepted. -/
theorem WindowExact.head_mem {s : Session} {ids : List UInt32} (h : s.WindowExact ids) :
    s.remoteAcknowledgeId ∈ ids := by
  obtain ⟨id, hid, hnat⟩ := h.2.greatest.1
  rwa [← UInt32.toNat_inj.mp hnat]

/-- With an exact window and a history of accepted ids, only accepted ids are
duplicates. -/
theorem WindowTracks.mem_of_isDuplicate {s : Session} {ids : List UInt32} {r : UInt32}
    (h : s.WindowTracks ids) (hhistory : ∀ x ∈ s.oldPacketHistory, x ∈ ids)
    (hr : s.isDuplicate r = true) : r ∈ ids := by
  obtain ⟨hhas, hr⟩ := isDuplicate_iff.mp hr
  rcases h with ⟨-, hnone, -⟩ | h
  · rw [hnone] at hhas
    cases hhas
  · rcases hr with rfl | ⟨i, hi, hsum, hbit⟩ | ⟨-, hmem⟩
    · exact h.head_mem
    · exact h.mem_of_mem_windowIds (mem_windowIds_of_toNat (Nat.zero_le i) hi hbit hsum)
    · exact hhistory r hmem

/-- The ids that enter the history were accepted. -/
theorem WindowExact.history_advanceWindow {target : LeftShift} {s : Session}
    {ids : List UInt32} {id x : UInt32} (h : s.WindowExact ids)
    (hx : x ∈ (s.advanceWindow target id).oldPacketHistory) :
    x ∈ s.oldPacketHistory ∨ x ∈ ids := by
  unfold Session.advanceWindow at hx
  by_cases hfar : id - s.remoteAcknowledgeId > 32
  · simp only [if_pos hfar, List.mem_append, List.mem_singleton] at hx
    rcases hx with (hx | hx) | rfl
    · exact Or.inl hx
    · exact Or.inr (h.mem_of_mem_windowIds hx)
    · exact Or.inr h.head_mem
  · simp only [if_neg hfar, List.mem_append] at hx
    exact hx.imp_right h.mem_of_mem_windowIds

theorem mem_history_recordLate {s : Session} {id x : UInt32}
    (hx : x ∈ (s.recordLate id).oldPacketHistory) : x ∈ s.oldPacketHistory ∨ x = id := by
  have happend : x ∈ s.oldPacketHistory ++ [id] → x ∈ s.oldPacketHistory ∨ x = id := by
    intro hmem
    rwa [List.mem_append, List.mem_singleton] at hmem
  unfold recordLate at hx
  by_cases hnear : s.remoteAcknowledgeId - id ≤ 32
  · simp only [if_pos hnear] at hx
    exact Or.inl hx
  · by_cases hold : id ∈ s.oldPacketHistory
    · simp only [if_neg hnear, if_pos hold] at hx
      exact Or.inl hx
    · simp only [if_neg hnear, if_neg hold] at hx
      split_ifs at hx
      · exact happend (List.mem_of_mem_tail hx)
      · exact happend hx

/-- The history receives only accepted ids. -/
theorem WindowTracks.history_updateAcknowledgeInfo (target : LeftShift) {s : Session}
    {ids : List UInt32} (id : UInt32) (h : s.WindowTracks ids)
    (hhistory : ∀ x ∈ s.oldPacketHistory, x ∈ ids) :
    ∀ x ∈ (s.updateAcknowledgeInfo target id).oldPacketHistory, x ∈ ids ++ [id] := by
  intro x hx
  rw [List.mem_append, List.mem_singleton]
  rcases h with ⟨-, hhas, -⟩ | h
  · simp only [Session.updateAcknowledgeInfo, hhas, Bool.not_false, if_true] at hx
    exact Or.inl (hhistory x hx)
  · simp only [Session.updateAcknowledgeInfo, h.1, Bool.not_true, Bool.false_eq_true,
      if_false] at hx
    split_ifs at hx
    · exact Or.inl ((h.history_advanceWindow hx).elim (hhistory x) fun hmem => hmem)
    · exact (mem_history_recordLate hx).imp_left (hhistory x)
    · exact Or.inl (hhistory x hx)

end Session

end Rtype.Rtnt
