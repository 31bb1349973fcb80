import Disping.Machine.Instruction

/-! # Listings of the memory routines

Destination in rcx and size in rdx for the two clears; destination in rcx,
source in rdx and size in r8 for the copy. The block loops use streaming stores,
which fault at an address that is not aligned to their width.
-/
namespace Disping.Assembly
open Machine

inductive Avx2MemzeroLabel
  | entry | align32 | loop128 | loop32 | tailBytes | mzFinish | mzDone
deriving DecidableEq, Repr

/-- asm_avx2_memzero_nt; asm_fast_memzero_nt is a jump to it. -/
def asmAvx2MemzeroNt : Routine Avx2MemzeroLabel where
  entry := .entry
  code
    | .entry => [
        .test .rcx (.reg .rcx),
        .jcc .jz .mzDone,
        .test .rdx (.reg .rdx),
        .jcc .jz .mzDone,
        .vpxor 0]
    | .align32 => [
        .test .rcx (.imm 31),
        .jcc .jz .loop128,
        .test .rdx (.reg .rdx),
        .jcc .jz .mzDone,
        .store8 (.off .rcx 0) (.imm 0),
        .inc .rcx,
        .dec .rdx,
        .jmp .align32]
    | .loop128 => [
        .cmp .rdx (.imm 128),
        .jcc .jb .loop32,
        .vmovntdq (.off .rcx 0) 0,
        .vmovntdq (.off .rcx 32) 0,
        .vmovntdq (.off .rcx 64) 0,
        .vmovntdq (.off .rcx 96) 0,
        .add .rcx (.imm 128),
        .sub .rdx (.imm 128),
        .jmp .loop128]
    | .loop32 => [
        .cmp .rdx (.imm 32),
        .jcc .jb .tailBytes,
        .vmovntdq (.off .rcx 0) 0,
        .add .rcx (.imm 32),
        .sub .rdx (.imm 32),
        .jmp .loop32]
    | .tailBytes => [
        .test .rdx (.reg .rdx),
        .jcc .jz .mzFinish,
        .store8 (.off .rcx 0) (.imm 0),
        .inc .rcx,
        .dec .rdx,
        .jmp .tailBytes]
    | .mzFinish => [
        .sfence,
        .vzeroupper]
    | .mzDone => [
        .ret]
  fall
    | .entry => some .align32
    | .align32 => some .loop128
    | .loop128 => some .loop32
    | .loop32 => some .tailBytes
    | .tailBytes => some .mzFinish
    | .mzFinish => some .mzDone
    | .mzDone => none

inductive Sse2MemzeroLabel
  | entry | align16 | loopSse2x64 | tailSse2 | tailBytesSse2 | mzSse2Finish | mzSse2Done
deriving DecidableEq, Repr

def asmSse2MemzeroNt : Routine Sse2MemzeroLabel where
  entry := .entry
  code
    | .entry => [
        .test .rcx (.reg .rcx),
        .jcc .jz .mzSse2Done,
        .test .rdx (.reg .rdx),
        .jcc .jz .mzSse2Done,
        .pxor 0]
    | .align16 => [
        .test .rcx (.imm 15),
        .jcc .jz .loopSse2x64,
        .test .rdx (.reg .rdx),
        .jcc .jz .mzSse2Done,
        .store8 (.off .rcx 0) (.imm 0),
        .inc .rcx,
        .dec .rdx,
        .jmp .align16]
    | .loopSse2x64 => [
        .cmp .rdx (.imm 64),
        .jcc .jb .tailSse2,
        .movntdq (.off .rcx 0) 0,
        .movntdq (.off .rcx 16) 0,
        .movntdq (.off .rcx 32) 0,
        .movntdq (.off .rcx 48) 0,
        .add .rcx (.imm 64),
        .sub .rdx (.imm 64),
        .jmp .loopSse2x64]
    | .tailSse2 => [
        .cmp .rdx (.imm 16),
        .jcc .jb .tailBytesSse2,
        .movntdq (.off .rcx 0) 0,
        .add .rcx (.imm 16),
        .sub .rdx (.imm 16),
        .jmp .tailSse2]
    | .tailBytesSse2 => [
        .test .rdx (.reg .rdx),
        .jcc .jz .mzSse2Finish,
        .store8 (.off .rcx 0) (.imm 0),
        .inc .rcx,
        .dec .rdx,
        .jmp .tailBytesSse2]
    | .mzSse2Finish => [
        .sfence]
    | .mzSse2Done => [
        .ret]
  fall
    | .entry => some .align16
    | .align16 => some .loopSse2x64
    | .loopSse2x64 => some .tailSse2
    | .tailSse2 => some .tailBytesSse2
    | .tailBytesSse2 => some .mzSse2Finish
    | .mzSse2Finish => some .mzSse2Done
    | .mzSse2Done => none

inductive Avx2MemcpyLabel
  | entry | cpLoop128 | cpLoop32 | cpTail | cpFinish | cpDone
deriving DecidableEq, Repr

def asmAvx2MemcpyNt : Routine Avx2MemcpyLabel where
  entry := .entry
  code
    | .entry => [
        .test .rcx (.reg .rcx),
        .jcc .jz .cpDone,
        .test .rdx (.reg .rdx),
        .jcc .jz .cpDone,
        .test .r8 (.reg .r8),
        .jcc .jz .cpDone]
    | .cpLoop128 => [
        .cmp .r8 (.imm 128),
        .jcc .jb .cpLoop32,
        .vmovdqu 0 (.off .rdx 0),
        .vmovdqu 1 (.off .rdx 32),
        .vmovdqu 2 (.off .rdx 64),
        .vmovdqu 3 (.off .rdx 96),
        .vmovntdq (.off .rcx 0) 0,
        .vmovntdq (.off .rcx 32) 1,
        .vmovntdq (.off .rcx 64) 2,
        .vmovntdq (.off .rcx 96) 3,
        .add .rcx (.imm 128),
        .add .rdx (.imm 128),
        .sub .r8 (.imm 128),
        .jmp .cpLoop128]
    | .cpLoop32 => [
        .cmp .r8 (.imm 32),
        .jcc .jb .cpTail,
        .vmovdqu 0 (.off .rdx 0),
        .vmovntdq (.off .rcx 0) 0,
        .add .rcx (.imm 32),
        .add .rdx (.imm 32),
        .sub .r8 (.imm 32),
        .jmp .cpLoop32]
    | .cpTail => [
        .test .r8 (.reg .r8),
        .jcc .jz .cpFinish,
        .mov8 .rax (.mem (.off .rdx 0)),
        .store8 (.off .rcx 0) (.reg .rax),
        .inc .rcx,
        .inc .rdx,
        .dec .r8,
        .jmp .cpTail]
    | .cpFinish => [
        .sfence,
        .vzeroupper]
    | .cpDone => [
        .ret]
  fall
    | .entry => some .cpLoop128
    | .cpLoop128 => some .cpLoop32
    | .cpLoop32 => some .cpTail
    | .cpTail => some .cpFinish
    | .cpFinish => some .cpDone
    | .cpDone => none

end Disping.Assembly
