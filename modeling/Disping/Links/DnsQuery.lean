import Disping.Wire.DomainNames

/-! # The packet of a latency measurement

MeasureDnsLatency writes the query by hand. Its loop goes from dot to dot through the text of the name.
-/
namespace Disping.Links

open Wire

def dotByte : Byte := 0x2E

/-- `std::string::find` of one character. -/
def findByte (s : List Byte) (b : Byte) (pos : ℕ) : Option ℕ :=
  ((s.drop pos).findIdx? (· = b)).map (pos + ·)

def substr (s : List Byte) (pos count : ℕ) : List Byte := (s.drop pos).take count

theorem findByte_lt {s : List Byte} {b : Byte} {pos i : ℕ} (h : findByte s b pos = some i) :
    pos ≤ i ∧ i < s.length := by
  obtain ⟨j, hj, rfl⟩ := Option.map_eq_some_iff.mp h
  obtain ⟨hlt, -⟩ := List.findIdx?_eq_some_iff_getElem.mp hj
  rw [List.length_drop] at hlt
  omega

/-- The length and the bytes of one part. -/
def pushPart (packet part : List Byte) : List Byte := packet ++ BitVec.ofNat 8 part.length :: part

/-- The loop over the dots: the packet and the start of the part behind the last one. -/
def pushParts (domain packet : List Byte) (start : ℕ) : List Byte × ℕ :=
  match h : findByte domain dotByte start with
  | none => (packet, start)
  | some dot => pushParts domain (pushPart packet (substr domain start (dot - start))) (dot + 1)
termination_by domain.length - start
decreasing_by
  have hdot := findByte_lt h
  omega

def packetHeader : List Byte := [0x12, 0x34, 0x01, 0x00, 0x00, 0x01, 0x00, 0x00, 0x00, 0x00, 0x00, 0x00]

def queryPacket (testDomain : List Byte) : List Byte :=
  let (packet, start) := pushParts testDomain packetHeader 0
  let last := testDomain.drop start
  let packet := pushPart packet last ++ [0x00]
  packet ++ [0x00, 0x01] ++ [0x00, 0x01]

/-- The text of a name. -/
def dotted (name : DomainName) : List Byte := [dotByte].intercalate (name.map Label.bytes)

section Parts
variable {before part behind : List Byte}

theorem findByte_part (h : dotByte ∉ part) :
    findByte (before ++ (part ++ dotByte :: behind)) dotByte before.length =
      some (before.length + part.length) := by
  have hfirst : (part ++ dotByte :: behind).findIdx? (· = dotByte) = some part.length := by
    rw [List.findIdx?_append, List.findIdx?_eq_none_iff.mpr]
    · simp [List.findIdx?_cons]
    · intro b hb
      exact decide_eq_false fun heq => h (heq ▸ hb)
  rw [findByte, List.drop_left, hfirst, Option.map_some]

theorem findByte_last (h : dotByte ∉ part) : findByte (before ++ part) dotByte before.length = none := by
  rw [findByte, List.drop_left, List.findIdx?_eq_none_iff.mpr, Option.map_none]
  intro b hb
  exact decide_eq_false fun heq => h (heq ▸ hb)

end Parts

/-- The loop and the last part write every label of what is left of the name. -/
theorem pushParts_dotted {name : DomainName} (hne : name ≠ []) (hdots : ∀ l ∈ name, dotByte ∉ l.bytes)
    (before packet : List Byte) :
    pushPart (pushParts (before ++ dotted name) packet before.length).1
        ((before ++ dotted name).drop (pushParts (before ++ dotted name) packet before.length).2) =
      packet ++ name.flatMap Label.encode := by
  induction name generalizing before packet with
  | nil => exact absurd rfl hne
  | cons l name ih =>
    have hl : dotByte ∉ l.bytes := hdots l List.mem_cons_self
    rcases name with _ | ⟨l', name⟩
    · have hlast : dotted [l] = l.bytes := List.intercalate_singleton
      rw [hlast, pushParts, findByte_last hl]
      simp [pushPart, Label.encode]
    · have hsplit : dotted (l :: l' :: name) = l.bytes ++ dotByte :: dotted (l' :: name) := by
        simp [dotted, List.intercalate_cons_cons]
      have hpart : substr (before ++ (l.bytes ++ dotByte :: dotted (l' :: name))) before.length
          (before.length + l.bytes.length - before.length) = l.bytes := by
        rw [substr, List.drop_left, Nat.add_sub_cancel_left, List.take_left]
      -- the text up to the dot is behind the loop now
      have hmoved : before ++ (l.bytes ++ dotByte :: dotted (l' :: name)) =
          (before ++ (l.bytes ++ [dotByte])) ++ dotted (l' :: name) := by simp
      have hstart : before.length + l.bytes.length + 1 = (before ++ (l.bytes ++ [dotByte])).length := by
        simp [Nat.add_assoc]
      rw [hsplit, pushParts, findByte_part hl]
      simp only [hpart]
      rw [hmoved, hstart, ih (List.cons_ne_nil _ _) fun k hk => hdots k (List.mem_cons_of_mem l hk)]
      simp [pushPart, Label.encode]

/-- The query that the packet stands for. -/
def latencyQuery (name : DomainName) : Query where
  header := ⟨0x1234, 0x0100, 1, 0, 0, 0⟩
  questions := [⟨name, 1, 1⟩]

theorem queryPacket_dotted {name : DomainName} (hne : name ≠ []) (hdots : ∀ l ∈ name, dotByte ∉ l.bytes) :
    queryPacket (dotted name) =
      (latencyQuery name).header.encode ++ (latencyQuery name).questions.flatMap Question.encode := by
  have hparts := pushParts_dotted hne hdots [] packetHeader
  rw [List.nil_append, List.length_nil] at hparts
  have hheader : Header.encode ⟨0x1234, 0x0100, 1, 0, 0, 0⟩ = packetHeader := by decide
  rw [queryPacket, show (latencyQuery name).header.encode = packetHeader from hheader]
  simp only [hparts]
  simp [latencyQuery, Question.encode, encodeName, wordBytes]

theorem parseQuery_queryPacket {name : DomainName} (hne : name ≠ [])
    (hdots : ∀ l ∈ name, dotByte ∉ l.bytes) :
    parseQuery (queryPacket (dotted name)) = some (latencyQuery name, []) := by
  have hread := @parseQuery_encode [] (latencyQuery name).header (latencyQuery name).questions rfl
    ⟨rfl, rfl, rfl⟩
  rw [List.append_nil] at hread
  rw [queryPacket_dotted hne hdots, hread]

/-- The packet of a name is a query for this name, and no other name has the packet. -/
theorem queryPacket_faithful {name : DomainName} (hne : name ≠ []) (hdots : ∀ l ∈ name, dotByte ∉ l.bytes) :
    parseQuery (queryPacket (dotted name)) = some (⟨⟨0x1234, 0x0100, 1, 0, 0, 0⟩, [⟨name, 1, 1⟩]⟩, []) ∧
      ∀ other : DomainName, other ≠ [] → (∀ l ∈ other, dotByte ∉ l.bytes) → dotted other ≠ dotted name →
        queryPacket (dotted other) ≠ queryPacket (dotted name) := by
  have hread := parseQuery_queryPacket hne hdots
  refine ⟨hread, fun other hother hdots' hnames hpackets => hnames ?_⟩
  have hread' := parseQuery_queryPacket hother hdots'
  rw [hpackets, hread] at hread'
  have hquery : latencyQuery name = latencyQuery other := (Prod.mk.inj (Option.some.inj hread')).1
  have hquestion : (⟨name, 1, 1⟩ : Question) = ⟨other, 1, 1⟩ := (List.cons.inj (Query.mk.inj hquery).2).1
  rw [(Question.mk.inj hquestion).1]

def valveNet : DomainName :=
  [⟨[0x76, 0x61, 0x6C, 0x76, 0x65], by decide, by decide⟩, ⟨[0x6E, 0x65, 0x74], by decide, by decide⟩]

theorem queryPacket_valveNet :
    parseQuery (queryPacket (dotted valveNet)) =
        some (⟨⟨0x1234, 0x0100, 1, 0, 0, 0⟩, [⟨valveNet, 1, 1⟩]⟩, []) ∧
      ∀ other : DomainName, other ≠ [] → (∀ l ∈ other, dotByte ∉ l.bytes) → dotted other ≠ dotted valveNet →
        queryPacket (dotted other) ≠ queryPacket (dotted valveNet) :=
  queryPacket_faithful (by decide) (by decide)

end Disping.Links
