import TrafficLab.Command.Stream

/-!
# Command streams: what is packed can be read back

A command is read back from its words, whatever follows them, except that keys lose their low eight
bits on the way.  A whole stream is read back if its length in bytes fits in a word.

A stream says how long it is, so of the beginnings and continuations of a stream none is accepted
beside the stream itself.

    commands (c.words ++ rest) = (commands rest).map (c.carried :: ·)       (commands_words_append)
    size cs fits → unpack (pack cs) = .ok (cs.map carried)                  (unpack_pack)
    one accepted stream begins another → they are equal            (eq_of_unpack_of_isPrefix)
-/

namespace TrafficLab

/-! ## One command -/

namespace SourceSetting

/-- The setting that arrives: keys without their low eight bits. -/
def carried : SourceSetting → SourceSetting
  | key value => key (value &&& RoutingKey.carried)
  | s => s

end SourceSetting

namespace SinkSetting

def carried : SinkSetting → SinkSetting
  | key value => key (value &&& RoutingKey.carried)
  | s => s

end SinkSetting

/-- A key without low bits arrives as it is. -/
theorem RoutingKey.and_carried {key : UInt32} (h : key.toNat % 256 = 0) : key &&& carried = key := by
  have hmask : ∀ n < 32, 8 ≤ n → (0xFFFFFF00#32).getLsbD n = true := by decide
  have hlow : ∀ n < 8, key.toBitVec.getLsbD n = false := by
    intro n hn
    have hbit : (key.toNat % 2 ^ 8).testBit n = key.toNat.testBit n := by
      rw [Nat.testBit_mod_two_pow, decide_eq_true hn, Bool.true_and]
    rw [show 2 ^ 8 = 256 from rfl, h, Nat.zero_testBit] at hbit
    exact hbit.symm
  apply UInt32.eq_of_toBitVec_eq
  show key.toBitVec &&& 0xFFFFFF00#32 = key.toBitVec
  apply BitVec.eq_of_getLsbD_eq
  intro n hn
  rw [BitVec.getLsbD_and]
  by_cases h8 : n < 8
  · rw [hlow n h8, Bool.false_and]
  · rw [hmask n hn (by omega), Bool.and_true]

namespace Command

/-- The command that arrives. -/
def carried : Command → Command
  | source i s => source i s.carried
  | sink j s => sink j s.carried
  | c => c

/-- The key that a command sets. -/
def key? : Command → Option UInt32
  | source _ (.key value) => some value
  | sink _ (.key value) => some value
  | _ => none

/-- A command whose key has no low bits arrives as it is. -/
theorem carried_eq_self {c : Command} (h : ∀ key, c.key? = some key → key.toNat % 256 = 0) :
    c.carried = c := by
  cases c with
  | source i s =>
    cases s with
    | key value =>
      show source i (.key (value &&& RoutingKey.carried)) = _
      rw [RoutingKey.and_carried (h value rfl)]
    | _ => rfl
  | sink j s =>
    cases s with
    | key value =>
      show sink j (.key (value &&& RoutingKey.carried)) = _
      rw [RoutingKey.and_carried (h value rfl)]
    | source core => rfl
  | _ => rfl

theorem toNat_head (op : Opcode) (n : UInt16) :
    (head op.code n).toNat = op.code + 256 * n.toNat := by
  have hcode := op.code_lt
  have hn := n.toNat_lt
  exact UInt32.toNat_ofNat_of_lt' (show _ < 2 ^ 32 by omega)

theorem code_of_head (op : Opcode) (n : UInt16) :
    Opcode.ofCode? ((head op.code n).toNat % 256) = some op := by
  have hcode := op.code_lt
  have hmod : (head op.code n).toNat % 256 = op.code := by
    rw [toNat_head]
    omega
  rw [hmod]
  exact op.ofCode?_code

theorem number_of_head (op : Opcode) (n : UInt16) :
    UInt16.ofNat ((head op.code n).toNat / 256 % 65536) = n := by
  have hcode := op.code_lt
  have hn := n.toNat_lt
  have hdiv : (head op.code n).toNat / 256 % 65536 = n.toNat := by
    rw [toNat_head]
    omega
  rw [hdiv]
  exact UInt16.ofNat_toNat

/-- A command without an argument is what its opcode and number say. -/
theorem plain?_of_no_argument {c : Command} (h : c.argument? = none) :
    plain? c.opcode c.number = some c.carried := by
  cases c with
  | exit => rfl
  | barrier => rfl
  | consume enabled => cases enabled <;> rfl
  | source i s =>
    cases s with
    | payload enabled => cases enabled <;> rfl
    | _ => cases h
  | sink j s => cases s <;> cases h
  | _ => cases h

theorem plain?_of_argument {c : Command} {a : UInt32} (h : c.argument? = some a) :
    plain? c.opcode c.number = none := by
  cases c with
  | exit => cases h
  | barrier => cases h
  | consume enabled => cases h
  | source i s =>
    cases s with
    | payload enabled => cases h
    | _ => rfl
  | sink j s => cases s <;> rfl
  | _ => rfl

/-- Two bytes packed into one word. -/
theorem withArgument?_num (sources sinks : UInt8) :
    withArgument? .num 0 (UInt32.ofNat (sources.toNat + 256 * sinks.toNat))
      = some (num sources sinks) := by
  have h₁ := sources.toNat_lt
  have h₂ := sinks.toNat_lt
  have hword : (UInt32.ofNat (sources.toNat + 256 * sinks.toNat)).toNat
      = sources.toNat + 256 * sinks.toNat :=
    UInt32.toNat_ofNat_of_lt' (show _ < 2 ^ 32 by omega)
  have hlow : (sources.toNat + 256 * sinks.toNat) % 256 = sources.toNat := by omega
  have hhigh : (sources.toNat + 256 * sinks.toNat) / 256 % 256 = sinks.toNat := by omega
  simp only [withArgument?, hword, hlow, hhigh, UInt8.ofNat_toNat]

/-- A metric and a role packed into one word. -/
theorem withArgument?_counter (slot : UInt16) (m : Metric) (role : UInt8) :
    withArgument? .counter slot (UInt32.ofNat (m.code + 65536 * role.toNat))
      = some (counter slot m role) := by
  have h₁ := m.code_lt
  have h₂ := role.toNat_lt
  have hword : (UInt32.ofNat (m.code + 65536 * role.toNat)).toNat = m.code + 65536 * role.toNat :=
    UInt32.toNat_ofNat_of_lt' (show _ < 2 ^ 32 by omega)
  have hlow : (m.code + 65536 * role.toNat) % 65536 = m.code := by omega
  have hhigh : (m.code + 65536 * role.toNat) / 65536 % 256 = role.toNat := by omega
  simp only [withArgument?, hword, hlow, hhigh, Metric.ofCode?_code, Option.map_some,
    UInt8.ofNat_toNat]

theorem withArgument?_of_argument {c : Command} {a : UInt32} (h : c.argument? = some a) :
    withArgument? c.opcode c.number a = some c.carried := by
  cases c with
  | num sources sinks =>
    cases h
    exact withArgument?_num sources sinks
  | counter slot m role =>
    cases h
    exact withArgument?_counter slot m role
  | record counters =>
    cases h
    simp only [withArgument?, opcode, CounterSet.ofMask?_mask, Option.map_some, carried]
  | exit => cases h
  | barrier => cases h
  | consume enabled => cases h
  | source i s =>
    cases s with
    | payload enabled => cases h
    | _ =>
      cases h
      rfl
  | sink j s =>
    cases s <;> cases h <;> rfl
  | _ =>
    cases h
    rfl

end Command

/-! ## Whole streams -/

namespace Stream

/-- A command is read back from its words, whatever follows them. -/
theorem commands_words_append (c : Command) (rest : List UInt32) :
    commands (c.words ++ rest) = (commands rest).map (c.carried :: ·) := by
  unfold Command.words
  cases ha : c.argument? with
  | none =>
    have hplain := Command.plain?_of_no_argument ha
    rw [List.cons_append, Option.toList_none, List.nil_append, commands]
    simp only [Command.code_of_head, Command.number_of_head, hplain]
  | some a =>
    have hplain := Command.plain?_of_argument ha
    have harg := Command.withArgument?_of_argument ha
    rw [List.cons_append, Option.toList_some, List.singleton_append, commands]
    simp only [Command.code_of_head, Command.number_of_head, hplain, harg]

theorem commands_words (cs : List Command) : commands (words cs) = .ok (cs.map (·.carried)) := by
  induction cs with
  | nil => rfl
  | cons c rest ih =>
    show commands (c.words ++ words rest) = _
    rw [commands_words_append, ih]
    rfl

theorem words32_flatMap_bytes32 (ws : List UInt32) :
    LittleEndian.words32 (ws.flatMap LittleEndian.bytes32) = ws := by
  induction ws with
  | nil => rfl
  | cons w rest ih => rw [List.flatMap_cons, LittleEndian.words32_bytes32_append, ih]

theorem length_flatMap_bytes32 (ws : List UInt32) :
    (ws.flatMap LittleEndian.bytes32).length = ws.length * 4 := by
  induction ws with
  | nil => rfl
  | cons w rest ih =>
    rw [List.flatMap_cons, List.length_append, LittleEndian.length_bytes32, ih, List.length_cons]
    omega

theorem length_pack (cs : List Command) : (pack cs).length = size cs := by
  unfold pack size
  simp only
  rw [List.length_append, LittleEndian.length_bytes32, length_flatMap_bytes32]
  omega

/-- A stream is read back if its length fits in the word that declares it. -/
theorem unpack_pack {cs : List Command} (h : size cs ≤ UInt32.size) :
    unpack (pack cs) = .ok (cs.map (·.carried)) := by
  have hlen := length_pack cs
  have hsize : size cs = (words cs).length * 4 + 4 := by
    unfold size
    omega
  have hdeclared : (UInt32.ofNat ((words cs).length * 4)).toNat = (words cs).length * 4 :=
    UInt32.toNat_ofNat_of_lt' (by omega)
  have hwords : LittleEndian.words32 (pack cs) =
      UInt32.ofNat ((words cs).length * 4) :: words cs := by
    unfold pack
    simp only
    rw [LittleEndian.words32_bytes32_append, words32_flatMap_bytes32]
  unfold unpack
  rw [if_neg (by omega)]
  simp only [hwords]
  rw [if_neg (by omega)]
  exact commands_words cs

/-- A command takes up one or two words. -/
theorem length_words_le (cs : List Command) : (words cs).length ≤ 2 * cs.length := by
  induction cs with
  | nil => exact Nat.le_refl 0
  | cons c rest ih =>
    have hone : c.words.length ≤ 2 := by
      unfold Command.words
      cases c.argument? <;> simp
    show (c.words ++ words rest).length ≤ _
    rw [List.length_append, List.length_cons]
    omega

/-! ## Where a stream ends -/

/-- An accepted stream is as long as its first word says. -/
theorem length_of_unpack {bytes : List UInt8} {cs : List Command} (h : unpack bytes = .ok cs) :
    4 ≤ bytes.length ∧
      bytes.length = 4 + (LittleEndian.word32 (bytes.take 4)).toNat := by
  unfold unpack at h
  split at h
  · cases h
  next haligned =>
  match bytes with
  | [] | [_] | [_, _] | [_, _, _] => cases h
  | a :: b :: c :: d :: rest =>
    simp only [LittleEndian.words32] at h
    split at h
    · cases h
    next hdeclared =>
    refine ⟨by simp, ?_⟩
    show (a :: b :: c :: d :: rest).length = 4 + (LittleEndian.word32 [a, b, c, d]).toNat
    rw [Decidable.not_not.1 hdeclared]
    simp only [List.length_cons]
    omega

/-- No accepted stream goes on after another. -/
theorem eq_of_unpack_of_isPrefix {short long : List UInt8} {cs ds : List Command}
    (hshort : unpack short = .ok cs) (hlong : unpack long = .ok ds) (h : short <+: long) :
    short = long := by
  obtain ⟨hfour, hlength⟩ := length_of_unpack hshort
  obtain ⟨-, hlength'⟩ := length_of_unpack hlong
  obtain ⟨rest, rfl⟩ := h
  rw [List.take_append_of_le_length hfour, ← hlength] at hlength'
  exact List.IsPrefix.eq_of_length ⟨rest, rfl⟩ hlength'.symm

/-! ## Main result -/

/-- A list of commands whose words can be counted in the length word is read back from its packed
stream, with the low bits of its keys cleared, and from no part and no continuation of it. -/
theorem unpack_only_whole_stream {cs : List Command} (h : (words cs).length * 4 < UInt32.size) :
    (pack cs).length = size cs ∧
      unpack (pack cs) = .ok (cs.map (·.carried)) ∧
      ((∀ c ∈ cs, ∀ key, c.key? = some key → key.toNat % 256 = 0) →
        unpack (pack cs) = .ok cs) ∧
      (∀ bytes, bytes <+: pack cs → bytes ≠ pack cs → ∃ e, unpack bytes = .error e) ∧
      (∀ bytes, pack cs <+: bytes → bytes ≠ pack cs → ∃ e, unpack bytes = .error e) := by
  have hunpack : unpack (pack cs) = .ok (cs.map (·.carried)) := by
    refine unpack_pack ?_
    unfold size
    change (words cs).length * 4 < 4294967296 at h
    show _ ≤ 4294967296
    omega
  refine ⟨length_pack cs, hunpack, fun hkeys => ?_, fun bytes hprefix hne => ?_,
    fun bytes hprefix hne => ?_⟩
  · have hsame : cs.map (·.carried) = cs.map id :=
      List.map_congr_left fun c hc => Command.carried_eq_self (hkeys c hc)
    rw [hunpack, hsame, List.map_id]
  · cases hbytes : unpack bytes with
    | error e => exact ⟨e, rfl⟩
    | ok ds => exact absurd (eq_of_unpack_of_isPrefix hbytes hunpack hprefix) hne
  · cases hbytes : unpack bytes with
    | error e => exact ⟨e, rfl⟩
    | ok ds => exact absurd (eq_of_unpack_of_isPrefix hunpack hbytes hprefix).symm hne

/-- A stream with commands of one and of two words, and with a key that has low bits. -/
def keepsTime : List Command :=
  [.timestep 1000, .num 1 2, .source 0 (.key 0x1FF), .source 0 (.payload true),
    .sink 1 (.source ⟨7⟩), .counter 0 .latencySum 1, .barrier, .run 4294967295, .exit]

theorem unpack_only_whole_stream_keepsTime :
    (words keepsTime).length * 4 < UInt32.size ∧
      (pack keepsTime).length = size keepsTime ∧
      unpack (pack keepsTime) = .ok (keepsTime.map (·.carried)) ∧
      keepsTime.map (·.carried) ≠ keepsTime ∧
      (∀ bytes, bytes <+: pack keepsTime → bytes ≠ pack keepsTime →
        ∃ e, unpack bytes = .error e) ∧
      (∀ bytes, pack keepsTime <+: bytes → bytes ≠ pack keepsTime →
        ∃ e, unpack bytes = .error e) := by
  have hfits : (words keepsTime).length * 4 < UInt32.size := by decide
  have hkey : keepsTime.map (·.carried) ≠ keepsTime := by decide
  obtain ⟨hlength, hunpack, -, hprefix, hextension⟩ := unpack_only_whole_stream hfits
  exact ⟨hfits, hlength, hunpack, hkey, hprefix, hextension⟩

end Stream

end TrafficLab
