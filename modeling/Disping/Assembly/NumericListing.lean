import Disping.Machine.Instruction

/-! # Listings of the CRC, the statistics and the jitter filter

Together with the two feature probes that the dispatch table asks. The
statistics routine takes its fifth and sixth argument from the caller's stack.
-/
namespace Disping.Assembly
open Machine

inductive Crc32Label
  | entry | crcLoop8 | crcLoop1 | crcRet
deriving DecidableEq, Repr

def asmCrc32Fast : Routine Crc32Label where
  entry := .entry
  code
    | .entry => [
        .mov32 .rax (.imm 0xFFFFFFFF),
        .test .rcx (.reg .rcx),
        .jcc .jz .crcRet,
        .test .rdx (.reg .rdx),
        .jcc .jz .crcRet]
    | .crcLoop8 => [
        .cmp .rdx (.imm 8),
        .jcc .jb .crcLoop1,
        .crc32q .rax (.mem (.off .rcx 0)),
        .add .rcx (.imm 8),
        .sub .rdx (.imm 8),
        .jmp .crcLoop8]
    | .crcLoop1 => [
        .test .rdx (.reg .rdx),
        .jcc .jz .crcRet,
        .crc32b .rax (.mem (.off .rcx 0)),
        .inc .rcx,
        .dec .rdx,
        .jmp .crcLoop1]
    | .crcRet => [
        .not32 .rax,
        .ret]
  fall
    | .entry => some .crcLoop8
    | .crcLoop8 => some .crcLoop1
    | .crcLoop1 => some .crcRet
    | .crcRet => none

inductive StatsLabel
  | entry | statsLoop | statsCompute | skipMin | skipMax | skipAvg | statsDone
deriving DecidableEq, Repr

def asmCalcPingStatsSimd : Routine StatsLabel where
  entry := .entry
  code
    | .entry => [
        .push .rbp,
        .mov .rbp (.reg .rsp),
        .push .rbx,
        .push .rdi,
        .mov .rax (.mem (.off .rbp 48)),
        .mov .rbx (.mem (.off .rbp 56)),
        .test .rcx (.reg .rcx),
        .jcc .jz .statsDone,
        .test .rdx (.reg .rdx),
        .jcc .jz .statsDone,
        .movsdLoad 0 (.off .rcx 0),
        .movsdLoad 1 (.off .rcx 0),
        .xorpd 2,
        .xorpd 3,
        .xor .rdi (.reg .rdi)]
    | .statsLoop => [
        .cmp .rdi (.reg .rdx),
        .jcc .jae .statsCompute,
        .movsdLoad 4 ⟨.rcx, some .rdi, 0⟩,
        .minsd 0 4,
        .maxsd 1 4,
        .addsd 2 4,
        .movsd 5 4,
        .mulsd 5 5,
        .addsd 3 5,
        .inc .rdi,
        .jmp .statsLoop]
    | .statsCompute => [
        .test .r8 (.reg .r8),
        .jcc .jz .skipMin,
        .movsdStore (.off .r8 0) 0]
    | .skipMin => [
        .test .r9 (.reg .r9),
        .jcc .jz .skipMax,
        .movsdStore (.off .r9 0) 1]
    | .skipMax => [
        .cvtsi2sd 6 .rdx,
        .divsd 2 6,
        .test .rax (.reg .rax),
        .jcc .jz .skipAvg,
        .movsdStore (.off .rax 0) 2]
    | .skipAvg => [
        .divsd 3 6,
        .movsd 7 2,
        .mulsd 7 7,
        .subsd 3 7,
        .xorpd 6,
        .maxsd 3 6,
        .sqrtsd 3 3,
        .test .rbx (.reg .rbx),
        .jcc .jz .statsDone,
        .movsdStore (.off .rbx 0) 3]
    | .statsDone => [
        .pop .rdi,
        .pop .rbx,
        .pop .rbp,
        .ret]
  fall
    | .entry => some .statsLoop
    | .statsLoop => some .statsCompute
    | .statsCompute => some .skipMin
    | .skipMin => some .skipMax
    | .skipMax => some .skipAvg
    | .skipAvg => some .statsDone
    | .statsDone => none

/-- The two words of abs_mask_pd that a 128-bit operand covers. -/
def absMaskPd : BitVec 128 := 0x7FFFFFFFFFFFFFFF7FFFFFFFFFFFFFFF

/-- The double 0.0625. -/
def jitterGainVal : Word := 0x3FB0000000000000

inductive JitterLabel
  | entry
deriving DecidableEq, Repr

def asmCalcJitterRfc3550 : Routine JitterLabel where
  entry := .entry
  code
    | .entry => [
        .andpdConst 1 absMaskPd,
        .subsd 1 0,
        .mulsdConst 1 jitterGainVal,
        .addsd 0 1,
        .ret]
  fall
    | .entry => none

inductive Avx2SupportLabel
  | entry | avx2Yes
deriving DecidableEq, Repr

def asmHasAvx2Support : Routine Avx2SupportLabel where
  entry := .entry
  code
    | .entry => [
        .push .rbx,
        .mov32 .rax (.imm 7),
        .xor32 .rcx (.reg .rcx),
        .cpuid,
        .bt32 .rbx 5,
        .jcc .jb .avx2Yes,
        .xor32 .rax (.reg .rax),
        .pop .rbx,
        .ret]
    | .avx2Yes => [
        .mov32 .rax (.imm 1),
        .pop .rbx,
        .ret]
  fall
    | .entry => some .avx2Yes
    | .avx2Yes => none

inductive RdtscpSupportLabel
  | entry | rdtscpYes
deriving DecidableEq, Repr

def asmHasRdtscpSupport : Routine RdtscpSupportLabel where
  entry := .entry
  code
    | .entry => [
        .push .rbx,
        .mov32 .rax (.imm 0x80000001),
        .cpuid,
        .bt32 .rdx 27,
        .jcc .jb .rdtscpYes,
        .xor32 .rax (.reg .rax),
        .pop .rbx,
        .ret]
    | .rdtscpYes => [
        .mov32 .rax (.imm 1),
        .pop .rbx,
        .ret]
  fall
    | .entry => some .rdtscpYes
    | .rdtscpYes => none

end Disping.Assembly
