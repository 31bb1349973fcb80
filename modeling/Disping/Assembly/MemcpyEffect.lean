import Disping.Assembly.MemcpyRuns

/-! # What the copy leaves in memory

Windows of natural numbers instead of offsets: neither wraps, they have no byte in common, and the
destination is aligned to a vector register.
-/
namespace Disping.Assembly
open Machine
variable {L : Type}

/-- The streaming stores issued since the log were each of a whole vector register. -/
def StreamsWide (log : List (Word × ℕ)) (s : State) : Prop :=
  ∃ issued, s.streamed = issued ++ log ∧ ∀ e ∈ issued, e.2 = 32

theorem StreamsWide.stream {log : List (Word × ℕ)} {s u : State} {a : Word} (h : StreamsWide log s)
    (hu : u.streamed = (a, 32) :: s.streamed) : StreamsWide log u := by
  obtain ⟨issued, hs, hall⟩ := h
  refine ⟨(a, 32) :: issued, by rw [hu, hs, List.cons_append], ?_⟩
  intro e he
  rcases List.mem_cons.mp he with rfl | he
  · rfl
  · exact hall e he

theorem StreamsWide.keep {log : List (Word × ℕ)} {s u : State} (h : StreamsWide log s)
    (hu : u.streamed = s.streamed) : StreamsWide log u := by
  obtain ⟨issued, hs, hall⟩ := h
  exact ⟨issued, hu.trans hs, hall⟩

/-- The copy's instructions. -/
def Instr.copies : Instr L → Bool
  | .test _ _ | .jcc _ _ | .jmp _ | .cmp _ _ | .vmovdqu _ _ | .vmovntdq _ _ | .add _ _ | .sub _ _
  | .mov8 _ _ | .store8 _ _ | .inc _ | .dec _ | .sfence | .vzeroupper | .ret => true
  | _ => false

/-- What every outcome of a block has streamed. -/
def Outcome.Streams (log : List (Word × ℕ)) : Outcome L → Prop
  | .next u => StreamsWide log u
  | .jump _ u => StreamsWide log u
  | .ret u => StreamsWide log u
  | .fault => True

theorem exec_streams (cpu : Cpu) {log : List (Word × ℕ)} {s : State} (h : StreamsWide log s)
    {i : Instr L} (hi : Instr.copies i = true) : Outcome.Streams log (exec cpu s i) := by
  cases i
  case vmovntdq a i =>
    simp only [exec]
    split
    · exact h.stream rfl
    · trivial
  case jcc c l =>
    simp only [exec]
    cases s.condition c <;> exact h
  all_goals first
    | exact h.keep rfl
    | cases hi

theorem runBlock_streams (cpu : Cpu) {log : List (Word × ℕ)} {is : List (Instr L)}
    (his : ∀ i ∈ is, Instr.copies i = true) {s : State} (h : StreamsWide log s) :
    Outcome.Streams log (runBlock cpu s is) := by
  induction is generalizing s with
  | nil => exact h
  | cons i is ih =>
    have hexec := exec_streams cpu h (his i (List.mem_cons_self ..))
    rw [runBlock]
    cases he : exec cpu s i with
    | next u =>
      rw [he] at hexec
      exact ih (fun j hj => his j (List.mem_cons_of_mem i hj)) hexec
    | jump l u => simpa only [he] using hexec
    | ret u => simpa only [he] using hexec
    | fault => trivial

theorem asmAvx2MemcpyNt_streams (cpu : Cpu) {n : ℕ} {l : Avx2MemcpyLabel} {s t : State}
    (h : asmAvx2MemcpyNt.run cpu n l s = some t) : StreamsWide s.streamed t := by
  have hcopies : ∀ l, ∀ i ∈ asmAvx2MemcpyNt.code l, Instr.copies i = true := by
    intro l
    cases l <;> decide
  refine asmAvx2MemcpyNt.run_invariant cpu (P := StreamsWide s.streamed) (fun l u hu => ?_) n l s t
    ⟨[], rfl, by simp⟩ h
  have hblock := runBlock_streams cpu (hcopies l) hu
  cases ho : runBlock cpu u (asmAvx2MemcpyNt.code l) <;> rw [ho] at hblock <;> exact hblock

section Windows
variable {dst src : Word} {n : ℕ}

/-- Windows that do not wrap and have no byte in common are apart. -/
theorem apart_of_disjoint (hdst : dst.toNat + n ≤ 2 ^ 64) (hsrc : src.toNat + n ≤ 2 ^ 64)
    (hdisjoint : dst.toNat + n ≤ src.toNat ∨ src.toNat + n ≤ dst.toNat) : Apart dst src n := by
  intro i hi
  simp only [offset, BitVec.toNat_sub, BitVec.toNat_add, BitVec.toNat_ofNat]
  omega

theorem copy_inside (m source : Memory) (hn : n ≤ 2 ^ 64) {i : ℕ} (hi : i < n) :
    copy m source dst src n (dst + BitVec.ofNat 64 i) = source (src + BitVec.ofNat 64 i) := by
  have hoffset : offset dst (dst + BitVec.ofNat 64 i) = i := offset_of_add dst i (by omega)
  simp only [copy, hoffset, if_pos hi]
  congr 2
  rw [BitVec.add_comm dst, BitVec.add_sub_cancel]

theorem copy_outside (m source : Memory) (hdst : dst.toNat + n ≤ 2 ^ 64) {x : Word}
    (hx : ¬ (dst.toNat ≤ x.toNat ∧ x.toNat < dst.toNat + n)) : copy m source dst src n x = m x := by
  rw [copy, if_neg]
  rwa [offset_lt_iff dst x hdst]

end Windows

/-- The copy between two windows, with every streaming store aligned. -/
theorem memcpy_effect (cpu : Cpu) {s : State} {dst src n : Word} (hrcx : s.gpr .rcx = dst)
    (hrdx : s.gpr .rdx = src) (hr8 : s.gpr .r8 = n) (hdst : dst ≠ 0) (hsrc : src ≠ 0)
    (haligned : dst.toNat % 32 = 0) (hdstFits : dst.toNat + n.toNat ≤ 2 ^ 64)
    (hsrcFits : src.toNat + n.toNat ≤ 2 ^ 64)
    (hdisjoint : dst.toNat + n.toNat ≤ src.toNat ∨ src.toNat + n.toNat ≤ dst.toNat) :
    ∃ t, asmAvx2MemcpyNt.Returns cpu s t ∧
      (∀ i < n.toNat, t.mem (dst + BitVec.ofNat 64 i) = s.mem (src + BitVec.ofNat 64 i)) ∧
      (∀ x, ¬ (dst.toNat ≤ x.toNat ∧ x.toNat < dst.toNat + n.toNat) → t.mem x = s.mem x) ∧
      ∃ issued, t.streamed = issued ++ s.streamed ∧ ∀ e ∈ issued, e.2 = 32 ∧ e.1.toNat % 32 = 0 := by
  have happ := apart_of_disjoint hdstFits hsrcFits hdisjoint
  obtain ⟨t, ht, hmem, issued, hissued, haligned'⟩ :=
    asmAvx2MemcpyNt_returns cpu dst src n hrcx hrdx hr8 happ (.inl haligned)
  obtain ⟨wide, hwide, hwidth⟩ := asmAvx2MemcpyNt_streams cpu ht
  have hsame : issued = wide := List.append_cancel_right (hissued.symm.trans hwide)
  have hnull : ¬ (dst = 0 ∨ src = 0) := not_or.mpr ⟨hdst, hsrc⟩
  rw [copied, if_neg hnull] at hmem
  refine ⟨t, ⟨_, ht⟩, fun i hi => ?_, fun x hx => ?_, issued, hissued, fun e he => ?_⟩
  · rw [hmem]
    exact copy_inside _ _ (by omega) hi
  · rw [hmem]
    exact copy_outside _ _ hdstFits hx
  · have hwidthE : e.2 = 32 := hwidth e (hsame ▸ he)
    exact ⟨hwidthE, hwidthE ▸ haligned' e he⟩

/-- 300 bytes from address 7 to address 1024: wide blocks, narrow blocks and single bytes. -/
theorem memcpy_effect_counting : ∃ t, asmAvx2MemcpyNt.Returns default
    (((default : State).setMem counting).call3 1024 7 300) t ∧
      (∀ i < 300, t.mem (1024 + BitVec.ofNat 64 i) = (7 + BitVec.ofNat 64 i).setWidth 8) ∧
      (∀ x : Word, ¬ (1024 ≤ x.toNat ∧ x.toNat < 1324) → t.mem x = x.setWidth 8) ∧
      ∃ issued, t.streamed = issued ++ (default : State).streamed ∧
        ∀ e ∈ issued, e.2 = 32 ∧ e.1.toNat % 32 = 0 :=
  @memcpy_effect default (((default : State).setMem counting).call3 1024 7 300) 1024 7 300 rfl rfl rfl
    (by decide) (by decide) (by decide) (by decide) (by decide) (by decide)

end Disping.Assembly
