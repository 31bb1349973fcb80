import Disping.Machine.Instruction

/-! # Listings of the two checksum routines

Buffer in rcx, length in bytes in rdx, result in ax. One routine interleaves
two 64-bit accumulators in blocks of 128 and 64 bytes, the fallback keeps one
accumulator and takes 32 bytes at a time.
-/
namespace Disping.Assembly
open Machine

inductive Avx2ChecksumLabel
  | entry | loop128 | loop64 | loop8 | loop2 | loop1 | foldAccumulators | retZero
deriving DecidableEq, Repr

/-- asm_avx2_checksum, which is also asm_fast_checksum_x64. -/
def asmAvx2Checksum : Routine Avx2ChecksumLabel where
  entry := .entry
  code
    | .entry => [
        .xor32 .rax (.reg .rax),
        .test .rcx (.reg .rcx),
        .jcc .jz .retZero,
        .test .rdx (.reg .rdx),
        .jcc .jz .retZero,
        .xor .r8 (.reg .r8),
        .xor .r10 (.reg .r10),
        .clc]
    | .loop128 => [
        .cmp .rdx (.imm 128),
        .jcc .jb .loop64,
        .mov .r9 (.mem (.off .rcx 0)),
        .adc .r8 (.reg .r9),
        .mov .r11 (.mem (.off .rcx 8)),
        .adc .r10 (.reg .r11),
        .mov .r9 (.mem (.off .rcx 16)),
        .adc .r8 (.reg .r9),
        .mov .r11 (.mem (.off .rcx 24)),
        .adc .r10 (.reg .r11),
        .mov .r9 (.mem (.off .rcx 32)),
        .adc .r8 (.reg .r9),
        .mov .r11 (.mem (.off .rcx 40)),
        .adc .r10 (.reg .r11),
        .mov .r9 (.mem (.off .rcx 48)),
        .adc .r8 (.reg .r9),
        .mov .r11 (.mem (.off .rcx 56)),
        .adc .r10 (.reg .r11),
        .mov .r9 (.mem (.off .rcx 64)),
        .adc .r8 (.reg .r9),
        .mov .r11 (.mem (.off .rcx 72)),
        .adc .r10 (.reg .r11),
        .mov .r9 (.mem (.off .rcx 80)),
        .adc .r8 (.reg .r9),
        .mov .r11 (.mem (.off .rcx 88)),
        .adc .r10 (.reg .r11),
        .mov .r9 (.mem (.off .rcx 96)),
        .adc .r8 (.reg .r9),
        .mov .r11 (.mem (.off .rcx 104)),
        .adc .r10 (.reg .r11),
        .mov .r9 (.mem (.off .rcx 112)),
        .adc .r8 (.reg .r9),
        .mov .r11 (.mem (.off .rcx 120)),
        .adc .r10 (.reg .r11),
        .adc .r8 (.imm 0),
        .adc .r10 (.imm 0),
        .add .rcx (.imm 128),
        .sub .rdx (.imm 128),
        .jcc .jnz .loop128]
    | .loop64 => [
        .cmp .rdx (.imm 64),
        .jcc .jb .loop8,
        .mov .r9 (.mem (.off .rcx 0)),
        .adc .r8 (.reg .r9),
        .mov .r11 (.mem (.off .rcx 8)),
        .adc .r10 (.reg .r11),
        .mov .r9 (.mem (.off .rcx 16)),
        .adc .r8 (.reg .r9),
        .mov .r11 (.mem (.off .rcx 24)),
        .adc .r10 (.reg .r11),
        .mov .r9 (.mem (.off .rcx 32)),
        .adc .r8 (.reg .r9),
        .mov .r11 (.mem (.off .rcx 40)),
        .adc .r10 (.reg .r11),
        .mov .r9 (.mem (.off .rcx 48)),
        .adc .r8 (.reg .r9),
        .mov .r11 (.mem (.off .rcx 56)),
        .adc .r10 (.reg .r11),
        .adc .r8 (.imm 0),
        .adc .r10 (.imm 0),
        .add .rcx (.imm 64),
        .sub .rdx (.imm 64)]
    | .loop8 => [
        .cmp .rdx (.imm 8),
        .jcc .jb .loop2,
        .mov .r9 (.mem (.off .rcx 0)),
        .adc .r8 (.reg .r9),
        .adc .r8 (.imm 0),
        .add .rcx (.imm 8),
        .sub .rdx (.imm 8),
        .jmp .loop8]
    | .loop2 => [
        .cmp .rdx (.imm 2),
        .jcc .jb .loop1,
        .movzx16 .r9 (.mem (.off .rcx 0)),
        .adc .r8 (.reg .r9),
        .adc .r8 (.imm 0),
        .add .rcx (.imm 2),
        .sub .rdx (.imm 2),
        .jmp .loop2]
    | .loop1 => [
        .cmp .rdx (.imm 1),
        .jcc .jb .foldAccumulators,
        .movzx8 .r9 (.mem (.off .rcx 0)),
        .shl32 .r9 8,
        .adc .r8 (.reg .r9),
        .adc .r8 (.imm 0)]
    | .foldAccumulators => [
        .add .r8 (.reg .r10),
        .adc .r8 (.imm 0),
        .mov .rax (.reg .r8),
        .shr .rax 32,
        .add32 .rax (.reg .r8),
        .adc32 .rax (.imm 0),
        .mov32 .rdx (.reg .rax),
        .shr32 .rdx 16,
        .add16 .rax (.reg .rdx),
        .adc16 .rax (.imm 0),
        .not16 .rax,
        .movzx16 .rax (.reg .rax),
        .ret]
    | .retZero => [
        .xor32 .rax (.reg .rax),
        .ret]
  fall
    | .entry => some .loop128
    | .loop128 => some .loop64
    | .loop64 => some .loop8
    | .loop8 => some .loop2
    | .loop2 => some .loop1
    | .loop1 => some .foldAccumulators
    | .foldAccumulators => some .retZero
    | .retZero => none

inductive Sse2ChecksumLabel
  | entry | loopSse2x32 | loopSse2x8 | loopSse2x2 | loopSse2x1 | foldSse2 | retSse2Zero
deriving DecidableEq, Repr

def asmSse2Checksum : Routine Sse2ChecksumLabel where
  entry := .entry
  code
    | .entry => [
        .xor32 .rax (.reg .rax),
        .test .rcx (.reg .rcx),
        .jcc .jz .retSse2Zero,
        .test .rdx (.reg .rdx),
        .jcc .jz .retSse2Zero,
        .xor .r8 (.reg .r8),
        .clc]
    | .loopSse2x32 => [
        .cmp .rdx (.imm 32),
        .jcc .jb .loopSse2x8,
        .mov .r9 (.mem (.off .rcx 0)),
        .adc .r8 (.reg .r9),
        .mov .r9 (.mem (.off .rcx 8)),
        .adc .r8 (.reg .r9),
        .mov .r9 (.mem (.off .rcx 16)),
        .adc .r8 (.reg .r9),
        .mov .r9 (.mem (.off .rcx 24)),
        .adc .r8 (.reg .r9),
        .adc .r8 (.imm 0),
        .add .rcx (.imm 32),
        .sub .rdx (.imm 32),
        .jcc .jnz .loopSse2x32]
    | .loopSse2x8 => [
        .cmp .rdx (.imm 8),
        .jcc .jb .loopSse2x2,
        .mov .r9 (.mem (.off .rcx 0)),
        .adc .r8 (.reg .r9),
        .adc .r8 (.imm 0),
        .add .rcx (.imm 8),
        .sub .rdx (.imm 8),
        .jmp .loopSse2x8]
    | .loopSse2x2 => [
        .cmp .rdx (.imm 2),
        .jcc .jb .loopSse2x1,
        .movzx16 .r9 (.mem (.off .rcx 0)),
        .adc .r8 (.reg .r9),
        .adc .r8 (.imm 0),
        .add .rcx (.imm 2),
        .sub .rdx (.imm 2),
        .jmp .loopSse2x2]
    | .loopSse2x1 => [
        .cmp .rdx (.imm 1),
        .jcc .jb .foldSse2,
        .movzx8 .r9 (.mem (.off .rcx 0)),
        .shl32 .r9 8,
        .adc .r8 (.reg .r9),
        .adc .r8 (.imm 0)]
    | .foldSse2 => [
        .mov .rax (.reg .r8),
        .shr .rax 32,
        .add32 .rax (.reg .r8),
        .adc32 .rax (.imm 0),
        .mov32 .rdx (.reg .rax),
        .shr32 .rdx 16,
        .add16 .rax (.reg .rdx),
        .adc16 .rax (.imm 0),
        .not16 .rax,
        .movzx16 .rax (.reg .rax),
        .ret]
    | .retSse2Zero => [
        .xor32 .rax (.reg .rax),
        .ret]
  fall
    | .entry => some .loopSse2x32
    | .loopSse2x32 => some .loopSse2x8
    | .loopSse2x8 => some .loopSse2x2
    | .loopSse2x2 => some .loopSse2x1
    | .loopSse2x1 => some .foldSse2
    | .foldSse2 => some .retSse2Zero
    | .retSse2Zero => none

end Disping.Assembly
