import TrafficLab.Proofs.Command.Stream
import TrafficLab.Proofs.Dump
import TrafficLab.Proofs.Program

/-!
# Command streams: what is accepted

The grammar of streams, said without the reader.  The first word counts the bytes that follow it,
and the other words split from the left into commands: a known opcode, and its argument if it takes
one.  Only the arguments of two opcodes can be wrong: the counters that are recorded, if one of them
is unknown, and the metric of a counter.

An accepted stream may have bits that nothing reads.  They are lost when its commands are packed
again, and with them the low bits of its keys; after that the stream stays as it is.

    (∃ cs, commands ws = .ok cs) ↔ Spelled ws                         (exists_commands_iff)
    unpack bytes = .ok cs ↔ the length is as declared, and commands … = .ok cs    (unpack_eq_ok)
    commands ws = .ok cs → (words cs).length = ws.length         (length_words_of_commands)
    words (cs.map carried) = words cs                                   (words_map_carried)
-/

namespace TrafficLab

/-! ## Opcodes, metrics and masks by their numbers -/

theorem Opcode.ofCode?_eq_some {n : Nat} {op : Opcode} : ofCode? n = some op ↔ op.code = n := by
  constructor
  · intro h
    have hfound : all.find? (fun op => op.code == n) = some op := h
    simpa using List.find?_some hfound
  · rintro rfl
    exact op.ofCode?_code

theorem RouterCounter.index_of_ofIndex? {i : Nat} {c : RouterCounter} (h : ofIndex? i = some c) :
    c.index = i := by
  have hall : ∀ i < 12, (ofIndex? i).map index = some i := by decide
  have hi : i < 12 := (List.getElem?_eq_some_iff.1 h).1
  have hindex := hall i hi
  rw [h] at hindex
  exact Option.some_inj.1 hindex

theorem Metric.ofCode?_eq_some {n : Nat} {m : Metric} : ofCode? n = some m ↔ m.code = n := by
  constructor
  · intro h
    unfold ofCode? at h
    split at h
    case h_6 =>
      split at h
      · next hle =>
        obtain ⟨c, hc, rfl⟩ := Option.map_eq_some_iff.1 h
        have hindex := RouterCounter.index_of_ofIndex? hc
        show routerBase + c.index = n
        omega
      · cases h
    all_goals
      cases h
      rfl
  · rintro rfl
    exact m.ofCode?_code

/-- A mask is that of a set of counters if each of its bits is a counter's. -/
theorem CounterSet.ofMask?_isSome_iff {mask : UInt32} :
    (ofMask? mask).isSome = true ↔
      ∀ i, mask.toNat.testBit i = true → ∃ c : RouterCounter, c.index = i := by
  have hindex : ∀ i < 12, ∃ c ∈ RouterCounter.all, c.index = i := by decide
  constructor
  · intro h i hbit
    obtain ⟨s, hs⟩ := Option.isSome_iff_exists.1 h
    have hmask : s.mask = mask := by
      unfold ofMask? at hs
      split at hs
      · cases hs
        rfl
      · cases hs
    by_cases hi : i < 12
    · obtain ⟨c, -, hc⟩ := hindex i hi
      exact ⟨c, hc⟩
    · have hnone := s.getLsbD_of_le (Nat.le_of_not_lt hi)
      rw [hmask, show mask.toBitVec.getLsbD i = true from hbit] at hnone
      cases hnone
  · intro h
    have hknown : ∀ i < 12, (~~~known).toBitVec.getLsbD i = false := by decide
    have hwithin : mask &&& ~~~known = 0 := by
      apply UInt32.eq_of_toBitVec_eq
      refine BitVec.eq_of_getLsbD_eq fun i _ => ?_
      rw [UInt32.toBitVec_and, BitVec.getLsbD_and]
      show _ = (0#32).getLsbD i
      rw [BitVec.getLsbD_zero]
      cases hbit : mask.toBitVec.getLsbD i with
      | false => rfl
      | true =>
        obtain ⟨c, rfl⟩ := h i hbit
        rw [hknown _ c.index_lt, Bool.and_false]
    rw [ofMask?, dif_pos hwithin]
    rfl

/-! ## The grammar -/

namespace Opcode

/-- Whether an opcode is followed by an argument. -/
def takesArgument : Opcode → Bool
  | exit | barrier | payload | noPayload | consume | noConsume => false
  | _ => true

/-- A word can be the argument of an opcode. -/
def Admits (op : Opcode) (a : UInt32) : Prop :=
  match op with
  | record => ∀ i, a.toNat.testBit i = true → ∃ c : RouterCounter, c.index = i
  | counter => ∃ m : Metric, m.code = a.toNat % 65536
  | _ => True

end Opcode

namespace Stream

/-- Words that split from the left into commands. -/
inductive Spelled : List UInt32 → Prop
  | nil : Spelled []
  | plain {w : UInt32} {rest : List UInt32} (op : Opcode) : op.code = w.toNat % 256 →
      op.takesArgument = false → Spelled rest → Spelled (w :: rest)
  | withArgument {w a : UInt32} {rest : List UInt32} (op : Opcode) : op.code = w.toNat % 256 →
      op.takesArgument = true → op.Admits a → Spelled rest → Spelled (w :: a :: rest)

/-- Bytes that are a stream. -/
structure Grammatical (bytes : List UInt8) : Prop where
  whole_words : bytes.length % 4 = 0
  four_le : 4 ≤ bytes.length
  declared : LittleEndian.value (bytes.take 4) = bytes.length - 4
  spelled : Spelled (LittleEndian.words32 (bytes.drop 4))

end Stream

/-! ## One command -/

namespace Command

theorem plain?_eq_none_iff {op : Opcode} {n : UInt16} :
    plain? op n = none ↔ op.takesArgument = true := by
  cases op <;> simp [plain?, Opcode.takesArgument]

theorem withArgument?_isSome_iff {op : Opcode} {n : UInt16} {a : UInt32}
    (h : op.takesArgument = true) : (withArgument? op n a).isSome = true ↔ op.Admits a := by
  cases op with
  | record =>
    unfold withArgument?
    rw [Option.isSome_map]
    exact CounterSet.ofMask?_isSome_iff
  | counter =>
    unfold withArgument?
    rw [Option.isSome_map, Option.isSome_iff_exists]
    exact exists_congr fun m => Metric.ofCode?_eq_some
  | exit | barrier | payload | noPayload | consume | noConsume => cases h
  | _ => exact iff_of_true rfl trivial

theorem argument?_of_plain? {op : Opcode} {n : UInt16} {c : Command} (h : plain? op n = some c) :
    c.argument? = none := by
  cases op with
  | exit | barrier | payload | noPayload | consume | noConsume =>
    cases h
    rfl
  | _ => cases h

theorem argument?_of_withArgument? {op : Opcode} {n : UInt16} {a : UInt32} {c : Command}
    (h : withArgument? op n a = some c) : c.argument?.isSome = true := by
  cases op with
  | record =>
    obtain ⟨s, -, rfl⟩ := Option.map_eq_some_iff.1 h
    rfl
  | counter =>
    obtain ⟨m, -, rfl⟩ := Option.map_eq_some_iff.1 h
    rfl
  | exit | barrier | payload | noPayload | consume | noConsume => cases h
  | _ =>
    cases h
    rfl

/-- A command that has arrived is spelled as the one that was sent. -/
theorem words_carried (c : Command) : c.carried.words = c.words := by
  have htwice : ∀ key : UInt32,
      (key &&& RoutingKey.carried) &&& RoutingKey.carried = key &&& RoutingKey.carried := by
    intro key
    rw [UInt32.and_assoc, UInt32.and_self]
  cases c with
  | source i s =>
    cases s with
    | key value => exact congrArg (fun a => [head Opcode.sourceKey.code i, a]) (htwice value)
    | _ => rfl
  | sink j s =>
    cases s with
    | key value => exact congrArg (fun a => [head Opcode.sinkKey.code j, a]) (htwice value)
    | source core => rfl
  | _ => rfl

end Command

/-! ## Whole streams -/

namespace Stream

open Checked

/-- A command without an argument is read, and then the rest. -/
theorem commands_plain {w : UInt32} {rest : List UInt32} {op : Opcode} {c : Command}
    (hop : op.code = w.toNat % 256)
    (hc : Command.plain? op (UInt16.ofNat (w.toNat / 256 % 65536)) = some c) :
    commands (w :: rest) = (commands rest).map (c :: ·) := by
  rw [commands]
  simp only [Opcode.ofCode?_eq_some.2 hop, hc]

theorem commands_withArgument {w a : UInt32} {rest : List UInt32} {op : Opcode} {c : Command}
    (hop : op.code = w.toNat % 256) (harg : op.takesArgument = true)
    (hc : Command.withArgument? op (UInt16.ofNat (w.toNat / 256 % 65536)) a = some c) :
    commands (w :: a :: rest) = (commands rest).map (c :: ·) := by
  rw [commands]
  simp only [Opcode.ofCode?_eq_some.2 hop, Command.plain?_eq_none_iff.2 harg, hc]

/-- Words are read exactly if they split into commands. -/
theorem exists_commands_iff {ws : List UInt32} :
    (∃ cs, commands ws = .ok cs) ↔ Spelled ws := by
  constructor
  · rintro ⟨cs, h⟩
    fun_induction commands ws generalizing cs with
    | case1 => exact .nil
    | case2 | case4 | case5 => cases h
    | case3 w rest code number op hop c hc ih =>
      obtain ⟨ds, hds, -⟩ := map_eq_ok.1 h
      have hplain : ¬op.takesArgument = true := fun harg => by
        rw [Command.plain?_eq_none_iff.2 harg] at hc
        cases hc
      exact .plain op (Opcode.ofCode?_eq_some.1 hop) (Bool.eq_false_iff.2 hplain) (ih ds hds)
    | case6 w code number op hop hplain a rest c hc ih =>
      obtain ⟨ds, hds, -⟩ := map_eq_ok.1 h
      have harg := Command.plain?_eq_none_iff.1 hplain
      have hadmits := (Command.withArgument?_isSome_iff harg).1 (Option.isSome_of_eq_some hc)
      exact .withArgument op (Opcode.ofCode?_eq_some.1 hop) harg hadmits (ih ds hds)
  · intro h
    induction h with
    | nil => exact ⟨[], rfl⟩
    | @plain w rest op hop harg _ ih =>
      obtain ⟨ds, hds⟩ := ih
      have hsome : Command.plain? op (UInt16.ofNat (w.toNat / 256 % 65536)) ≠ none := fun hnone => by
        rw [Command.plain?_eq_none_iff.1 hnone] at harg
        cases harg
      obtain ⟨c, hc⟩ := Option.ne_none_iff_exists'.1 hsome
      exact ⟨c :: ds, by rw [commands_plain hop hc, hds]; rfl⟩
    | @withArgument w a rest op hop harg hadmits _ ih =>
      obtain ⟨ds, hds⟩ := ih
      obtain ⟨c, hc⟩ := Option.isSome_iff_exists.1 ((Command.withArgument?_isSome_iff harg).2 hadmits)
      exact ⟨c :: ds, by rw [commands_withArgument hop harg hc, hds]; rfl⟩

/-- The commands that are read have as many words as they are read from. -/
theorem length_words_of_commands {ws : List UInt32} {cs : List Command}
    (h : commands ws = .ok cs) : (words cs).length = ws.length := by
  fun_induction commands ws generalizing cs with
  | case1 =>
    cases h
    rfl
  | case2 | case4 | case5 => cases h
  | @case3 w rest code number op hop c hc ih =>
    obtain ⟨ds, hds, rfl⟩ := map_eq_ok.1 h
    show (c.words ++ words ds).length = _
    rw [List.length_append, ih hds, Command.words, Command.argument?_of_plain? hc]
    exact Nat.add_comm 1 rest.length
  | @case6 w code number op hop hplain a rest c hc ih =>
    obtain ⟨ds, hds, rfl⟩ := map_eq_ok.1 h
    obtain ⟨b, hb⟩ := Option.isSome_iff_exists.1 (Command.argument?_of_withArgument? hc)
    show (c.words ++ words ds).length = _
    rw [List.length_append, ih hds, Command.words, hb]
    exact Nat.add_comm 2 rest.length

theorem words_map_carried (cs : List Command) : words (cs.map (·.carried)) = words cs := by
  unfold words
  rw [List.flatMap_map]
  exact List.flatMap_congr fun c _ => c.words_carried

/-- A stream is accepted if its length is the one it declares and its words are commands. -/
theorem unpack_eq_ok {bytes : List UInt8} {cs : List Command} :
    unpack bytes = .ok cs ↔
      bytes.length % 4 = 0 ∧ 4 ≤ bytes.length ∧
        LittleEndian.value (bytes.take 4) = bytes.length - 4 ∧
        commands (LittleEndian.words32 (bytes.drop 4)) = .ok cs := by
  unfold unpack
  split
  · next hodd =>
    constructor
    · intro h
      cases h
    · rintro ⟨heven, -⟩
      exact absurd heven hodd
  next heven =>
  rw [Decidable.not_not] at heven
  match bytes with
  | [] | [_] | [_, _] | [_, _, _] =>
    constructor
    · intro h
      cases h
    · rintro ⟨-, hfour, -⟩
      simp at hfour
  | a :: b :: c :: d :: rest =>
    have hlt : LittleEndian.value [a, b, c, d] < 256 ^ 4 := LittleEndian.value_lt [a, b, c, d]
    have hword : (LittleEndian.word32 [a, b, c, d]).toNat = LittleEndian.value [a, b, c, d] :=
      UInt32.toNat_ofNat_of_lt' hlt
    simp only [LittleEndian.words32]
    split
    · next hne =>
      constructor
      · intro h
        cases h
      · rintro ⟨-, -, hdeclared, -⟩
        exact absurd (hword.trans hdeclared) hne
    · next heq =>
      rw [Decidable.not_not, hword] at heq
      constructor
      · intro h
        exact ⟨heven, by simp, heq, h⟩
      · rintro ⟨-, -, -, h⟩
        exact h

/-! ## Main result -/

/-- Bytes are accepted if and only if they are a stream by the grammar.  Packed again, the commands
of an accepted stream are a stream of the same length, from which the same commands are read with
the low bits of their keys cleared, and which packing changes no more. -/
theorem accepts_grammar (bytes : List UInt8) :
    ((∃ cs, unpack bytes = .ok cs) ↔ Grammatical bytes) ∧
      ∀ cs, unpack bytes = .ok cs →
        (pack cs).length = bytes.length ∧
        unpack (pack cs) = .ok (cs.map (·.carried)) ∧
        pack (cs.map (·.carried)) = pack cs := by
  refine ⟨?_, fun cs h => ?_⟩
  · simp only [unpack_eq_ok]
    constructor
    · rintro ⟨cs, hwhole, hfour, hdeclared, hcommands⟩
      exact ⟨hwhole, hfour, hdeclared, exists_commands_iff.1 ⟨cs, hcommands⟩⟩
    · rintro ⟨hwhole, hfour, hdeclared, hspelled⟩
      obtain ⟨cs, hcommands⟩ := exists_commands_iff.2 hspelled
      exact ⟨cs, hwhole, hfour, hdeclared, hcommands⟩
  · obtain ⟨hwhole, hfour, hdeclared, hcommands⟩ := unpack_eq_ok.1 h
    have hwords := length_words_of_commands hcommands
    rw [LittleEndian.length_words32, List.length_drop] at hwords
    have hsize : size cs = bytes.length := by
      unfold size
      omega
    -- the length fits in the first word, since that is where it was read
    have hlt := LittleEndian.value_lt (bytes.take 4)
    rw [hdeclared, List.length_take, Nat.min_eq_left hfour] at hlt
    refine ⟨(length_pack cs).trans hsize, unpack_pack ?_, ?_⟩
    · show size cs ≤ 256 ^ 4
      omega
    · unfold pack
      rw [words_map_carried]

/-- A stream with bits that nothing reads: a number on a barrier, high bytes in a head and in the
numbers of roles, and low bits of a key. -/
def loose : List UInt8 :=
  [28, 0xAB00FF02, 0x06, 0xFFFF0201, 0x77000124, 0x1FF, 0x40, 0x00FF0101].flatMap
    LittleEndian.bytes32

theorem accepts_grammar_loose :
    ∃ cs, unpack loose = .ok cs ∧ Grammatical loose ∧ pack cs ≠ loose ∧
      (pack cs).length = loose.length ∧ unpack (pack cs) = .ok (cs.map (·.carried)) ∧
      cs.map (·.carried) ≠ cs ∧ pack (cs.map (·.carried)) = pack cs := by
  let cs : List Command := [.barrier, .num 1 2, .source 1 (.key 0x1FF),
    .counter 0 (.router .externalMulticast) 0xFF]
  have hunpack : unpack loose = .ok cs := by decide +kernel
  have hpack : pack cs ≠ loose := by decide +kernel
  have hkey : cs.map (·.carried) ≠ cs := by decide +kernel
  obtain ⟨haccepts, hrepack⟩ := accepts_grammar loose
  obtain ⟨hlength, hagain, hfixed⟩ := hrepack cs hunpack
  exact ⟨cs, hunpack, haccepts.1 ⟨cs, hunpack⟩, hpack, hlength, hagain, hkey, hfixed⟩

end Stream

end TrafficLab
