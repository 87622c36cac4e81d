/- GID: MiniRedis/Client/RequestTrees
   generality: I
   digest: The server's decoder reads back what its encoder writes of a request tree that fits the
     stack of both. -/

import MiniRedis.Client.RequestRoundTrip
import MiniRedis.Protocol.ResponseEncoder

set_option autoImplicit false
set_option relaxedAutoImplicit false

namespace MiniRedis.Client

open MiniRedis.Base MiniRedis.Python MiniRedis.Protocol

/-! ### Request trees -/

/-- The values that a request can be made of, nested in any way. -/
inductive RequestTree : RespValue → Prop
  | blobString {value : String} (ascii : isAscii value = true) : RequestTree (.blobString value)
  | simpleString {value : String} (ascii : isAscii value = true)
      (plain : ¬ ['\r', '\n'] <:+: value.toList) : RequestTree (.simpleString value)
  | number {value : ℤ} (small : value.natAbs < readableBound) : RequestTree (.number value)
  | array {items : List RespValue} (each : ∀ item ∈ items, RequestTree item) :
      RequestTree (.array items)

mutual

/-- How many levels a request tree has. -/
def levels : RespValue → ℕ
  | .array items => levelsItems items + 1
  | _ => 1

def levelsItems : List RespValue → ℕ
  | [] => 0
  | item :: items => max (levels item) (levelsItems items)

end

theorem levelsItems_le_iff {items : List RespValue} {depth : ℕ} :
    levelsItems items ≤ depth ↔ ∀ item ∈ items, levels item ≤ depth := by
  induction items with
  | nil => simp [levelsItems]
  | cons item items ih => rw [levelsItems, max_le_iff, ih, List.forall_mem_cons]

theorem levels_pos (value : RespValue) : 0 < levels value := by
  cases value <;> simp [levels]

variable {version : ℤ} {value : RespValue}

/-- The characters of an encoded value. -/
def valueChars (version : ℤ) (value : RespValue) : List Char :=
  ((decodeUtf8 (encode version value)).getD "").toList

private theorem valueChars_eq {cs : List Char}
    (encoded : encode version value = encodeUtf8 (String.ofList cs)) :
    valueChars version value = cs := by
  rw [valueChars, encoded, decodeUtf8_encodeUtf8, Option.getD_some, String.toList_ofList]

private theorem encodeItems_chars {items : List RespValue}
    (each : ∀ item ∈ items,
      encode version item = encodeUtf8 (String.ofList (valueChars version item))) :
    encodeItems version items = encodeUtf8 (String.ofList (items.flatMap (valueChars version))) := by
  induction items with
  | nil => rfl
  | cons item items ih =>
    rw [List.forall_mem_cons] at each
    rw [encodeItems, List.flatMap_cons, encodeUtf8_ofList_append, ← each.1, ih each.2]

private theorem encode_array_chars {items : List RespValue}
    (each : ∀ item ∈ items,
      encode version item = encodeUtf8 (String.ofList (valueChars version item))) :
    encode version (.array items) = encodeUtf8 (String.ofList
      (lineChars '*' (toString items.length) ++ items.flatMap (valueChars version))) := by
  rw [encode, encodeItems_chars each, encodeLine_eq, ← encodeUtf8_ofList_append]

private theorem encode_chars (tree : RequestTree value) :
    encode version value = encodeUtf8 (String.ofList (valueChars version value)) := by
  have known : ∀ {value cs}, encode version value = encodeUtf8 (String.ofList cs) →
      encode version value = encodeUtf8 (String.ofList (valueChars version value)) := by
    intro value cs encoded
    rw [valueChars_eq encoded]
    exact encoded
  induction tree with
  | @blobString value _ => exact known (encodeBlobString_eq value)
  | @simpleString value _ _ => exact known (encodeLine_eq '+' value)
  | @number value _ => exact known (encodeLine_eq ':' (toString value))
  | array _ ih => exact known (encode_array_chars ih)

/-! ### Sizes -/

private theorem encode_length_pos (tree : RequestTree value) :
    0 < (encode version value).length := by
  cases tree with
  | @blobString value _ =>
    have first := length_encodeLine_pos '$' (toString (byteLength value))
    rw [encode, encodePayload, List.length_append, List.length_append]
    omega
  | @simpleString value _ _ => exact length_encodeLine_pos '+' value
  | @number value _ => exact length_encodeLine_pos ':' (toString value)
  | @array items _ =>
    have first := length_encodeLine_pos '*' (toString items.length)
    rw [encode, List.length_append]
    omega

private theorem encodeItems_length {items : List RespValue}
    (each : ∀ item ∈ items, RequestTree item) :
    items.length ≤ (encodeItems version items).length ∧
      ∀ item ∈ items, (encode version item).length ≤ (encodeItems version items).length := by
  induction items with
  | nil => simp
  | cons item items ih =>
    rw [List.forall_mem_cons] at each
    have marked : 0 < (encode version item).length := encode_length_pos each.1
    obtain ⟨count, inner⟩ := ih each.2
    rw [encodeItems, List.length_append, List.length_cons, List.forall_mem_cons]
    refine ⟨by omega, by omega, fun other member => ?_⟩
    have := inner other member
    omega

private theorem levels_le_length (tree : RequestTree value) :
    levels value ≤ (encode version value).length := by
  induction tree with
  | @array items each ih =>
    have first := length_encodeLine_pos '*' (toString items.length)
    obtain ⟨-, inner⟩ : items.length ≤ (encodeItems version items).length ∧
        ∀ item ∈ items, (encode version item).length ≤ (encodeItems version items).length :=
      encodeItems_length each
    have shallow : levelsItems items ≤ (encodeItems version items).length :=
      levelsItems_le_iff.mpr (fun item member => (ih item member).trans (inner item member))
    rw [levels, encode, List.length_append]
    omega
  | blobString ascii => exact encode_length_pos (.blobString ascii)
  | simpleString ascii plain => exact encode_length_pos (.simpleString ascii plain)
  | number small => exact encode_length_pos (.number small)

/-! ### The decoder on a tree -/

theorem consumes_marked {depth : ℕ} {mark : Char} {reader : Decoder RespValue}
    {used : List Char} {outcome : Except PyException RespValue}
    (reads : ∀ cs, (decodeValue (depth + 1)).exec (mark :: cs) = reader.exec cs)
    (consumes : Consumes id reader used outcome) :
    Consumes id (decodeValue (depth + 1)) (mark :: used) outcome := by
  rintro cs rest (rfl : cs = _)
  obtain ⟨after, run, left⟩ := consumes (used ++ rest) rest rfl
  exact ⟨after, (reads (used ++ rest)).trans run, left⟩

private theorem raisesOn_marked {depth : ℕ} {mark : Char} {reader : Decoder RespValue}
    {used : List Char} {e : PyException}
    (reads : ∀ cs, (decodeValue (depth + 1)).exec (mark :: cs) = reader.exec cs)
    (raises : RaisesOn id reader used e) :
    RaisesOn id (decodeValue (depth + 1)) (mark :: used) e := by
  rintro cs rest (rfl : cs = _)
  rw [List.cons_append, reads]
  exact raises _ rest rfl

theorem consumes_counted {chars : List Char} (small : chars.length < readableBound) (depth : ℕ) :
    Consumes id (decodeValue (depth + 1))
      (lineChars '$' (toString chars.length) ++ (chars ++ ['\r', '\n']))
      (.ok (.blobString (String.ofList chars))) := by
  have payload : Consumes id (do
      let data ← get
      if data.length < chars.length + 2 ∨ (data.drop chars.length).take 2 ≠ ['\r', '\n'] then
        protocolError
      else
        set (data.drop (chars.length + 2))
        return .blobString (String.ofList (data.take chars.length)))
      (chars ++ ['\r', '\n']) (.ok (.blobString (String.ofList chars)) :
        Except PyException RespValue) := by
    rintro cs rest (rfl : cs = _)
    refine ⟨rest, ?_, rfl⟩
    rw [Effect.exec_bind_of_ok (Effect.exec_get _), if_neg]
    · simp [List.append_assoc, Except.map]
    · simp
  have same : lineChars '$' (toString chars.length) ++ (chars ++ ['\r', '\n']) =
      '$' :: ((toString (chars.length : ℤ)).toList ++ ['\r', '\n'] ++ (chars ++ ['\r', '\n'])) := by
    rw [lineChars, toString_natCast, List.cons_append]
  rw [same]
  refine consumes_marked (fun _ => rfl) ?_
  refine (consumes_readInteger (by simpa using small)).bind ?_
  rw [if_neg (by omega)]
  exact payload

private theorem items_chars {items : List RespValue} (each : ∀ item ∈ items, RequestTree item) :
    valueChars version (.array items) = '*' :: ((toString (items.length : ℤ)).toList ++
      ['\r', '\n'] ++ items.flatMap (valueChars version)) := by
  rw [valueChars_eq (encode_array_chars (fun item member => encode_chars (each item member)))]
  simp only [lineChars, toString_natCast, List.cons_append, List.append_assoc]

private theorem items_fit {items : List RespValue} (each : ∀ item ∈ items, RequestTree item)
    (fits : (encode version (.array items)).length ≤ maxSize) :
    items.length < readableBound ∧ ∀ item ∈ items, (encode version item).length ≤ maxSize := by
  have bound := maxSize_lt_readableBound
  obtain ⟨count, inner⟩ : items.length ≤ (encodeItems version items).length ∧
      ∀ item ∈ items, (encode version item).length ≤ (encodeItems version items).length :=
    encodeItems_length each
  rw [encode, List.length_append] at fits
  refine ⟨by omega, fun item member => ?_⟩
  have := inner item member
  omega

private theorem consumes_tree (tree : RequestTree value)
    (fits : (encode version value).length ≤ maxSize) {depth : ℕ} (room : levels value ≤ depth) :
    Consumes id (decodeValue depth) (valueChars version value) (.ok value) := by
  have bound := maxSize_lt_readableBound
  induction tree generalizing depth with
  | @blobString value ascii =>
    obtain ⟨depth, rfl⟩ := Nat.exists_eq_add_of_le' room
    have chars : valueChars version (.blobString value) = blobChars value :=
      valueChars_eq (encodeBlobString_eq value)
    rw [chars]
    refine consumes_blob ?_ ascii depth
    rw [encode, encodePayload, List.length_append, List.length_append] at fits
    rw [byteLength]
    omega
  | @simpleString value _ plain =>
    obtain ⟨depth, rfl⟩ := Nat.exists_eq_add_of_le' room
    have chars : valueChars version (.simpleString value) = lineChars '+' value :=
      valueChars_eq (encodeLine_eq '+' value)
    rw [chars]
    refine consumes_marked (fun _ => rfl) ?_
    have line := (consumes_readLine plain).map RespValue.simpleString
    rwa [String.ofList_toList] at line
  | @number value small =>
    obtain ⟨depth, rfl⟩ := Nat.exists_eq_add_of_le' room
    have chars : valueChars version (.number value) = lineChars ':' (toString value) :=
      valueChars_eq (encodeLine_eq ':' (toString value))
    rw [chars]
    refine consumes_marked (fun _ => rfl) ?_
    exact (consumes_readInteger small).map RespValue.number
  | @array items each ih =>
    obtain ⟨depth, rfl⟩ : ∃ n, depth = n + 1 :=
      Nat.exists_eq_add_one_of_ne_zero (by have := levels_pos (.array items); omega)
    rw [levels, Nat.add_le_add_iff_right, levelsItems_le_iff] at room
    obtain ⟨small, itemsFit⟩ := items_fit each fits
    have items_read : Consumes id ((decodeValue depth).times items.length)
        (items.flatMap (valueChars version)) (.ok (items.map id)) :=
      consumes_times (fun item member => ih item member (itemsFit item member) (room item member))
    rw [List.map_id] at items_read
    rw [items_chars each]
    refine consumes_marked (fun _ => rfl) ?_
    refine (consumes_readInteger (by simpa using small)).bind ?_
    rw [if_neg (by omega), Int.toNat_natCast]
    exact items_read.map RespValue.array

private theorem raisesOn_no_room (used : List Char) :
    RaisesOn id (decodeValue 0) used .recursionError := fun _ _ _ => rfl

private theorem raisesOn_tree (tree : RequestTree value)
    (fits : (encode version value).length ≤ maxSize) {depth : ℕ} (short : depth < levels value) :
    RaisesOn id (decodeValue depth) (valueChars version value) .recursionError := by
  induction tree generalizing depth with
  | @array items each ih =>
    cases depth with
    | zero => exact raisesOn_no_room _
    | succ depth =>
      obtain ⟨small, itemsFit⟩ := items_fit each fits
      have deep : ∃ item ∈ items, depth < levels item := by
        by_contra shallow
        simp only [not_exists, not_and, not_lt] at shallow
        rw [levels, Nat.add_lt_add_iff_right] at short
        exact absurd (levelsItems_le_iff.mpr shallow) (by omega)
      have items_raise : RaisesOn id ((decodeValue depth).times items.length)
          (items.flatMap (valueChars version)) .recursionError := by
        have pieces : ∀ item ∈ items,
            Consumes id (decodeValue depth) (valueChars version item) (.ok item) ∨
              RaisesOn id (decodeValue depth) (valueChars version item) .recursionError := by
          intro item member
          rcases Nat.lt_or_ge depth (levels item) with short | room
          · exact Or.inr (ih item member (itemsFit item member) short)
          · exact Or.inl (consumes_tree (each item member) (itemsFit item member) room)
        obtain ⟨item, member, short⟩ := deep
        exact raisesOn_times pieces
          ⟨item, member, ih item member (itemsFit item member) short⟩
      have array : RaisesOn id (decodeArray (decodeValue depth))
          ((toString (items.length : ℤ)).toList ++ ['\r', '\n'] ++
            items.flatMap (valueChars version)) .recursionError := by
        refine (consumes_readInteger (by simpa using small)).bind_raisesOn ?_
        rw [if_neg (by omega), Int.toNat_natCast]
        exact items_raise.bind _
      rw [items_chars each]
      exact raisesOn_marked (fun _ => rfl) array
  | blobString _ | simpleString _ _ | number _ =>
    obtain rfl : depth = 0 := Nat.lt_one_iff.mp short
    exact raisesOn_no_room _

/-! ### Round trips -/

private theorem decodeWithin_tree {items : List RespValue}
    (each : ∀ item ∈ items, RequestTree item)
    (fits : (encode version (.array items)).length ≤ maxSize) (depth : ℕ) :
    decodeWithin depth (encode version (.array items)) =
      if levels (.array items) ≤ depth then .ok (.array items) else .error .recursionError := by
  have tree := RequestTree.array each
  have chars : encode version (.array items) =
      encodeUtf8 (String.ofList (valueChars version (.array items))) := encode_chars tree
  rw [chars, decodeWithin, decodeUtf8_encodeUtf8]
  simp only [String.toList_ofList]
  by_cases room : levels (.array items) ≤ depth
  · rw [if_pos room]
    obtain ⟨_, run, rfl⟩ := consumes_tree tree fits room
      (valueChars version (.array items)) [] (List.append_nil _).symm
    rw [run]
  · rw [if_neg room]
    have raised := raisesOn_tree tree fits (Nat.lt_of_not_le room)
      (valueChars version (.array items)) [] (List.append_nil _).symm
    rcases run : (decodeValue depth).exec (valueChars version (.array items)) with ⟨outcome, rest⟩
    rw [run] at raised
    cases raised
    rfl

theorem decode_tree {items : List RespValue} (each : ∀ item ∈ items, RequestTree item)
    (fits : (encode version (.array items)).length ≤ maxSize) :
    decode (encode version (.array items)) = .ok (.array items) := by
  have room : levels (.array items) ≤ (encode version (.array items)).length + 1 :=
    (levels_le_length (.array each)).trans (Nat.le_succ _)
  exact (decodeWithin_tree each fits _).trans (if_pos room)

end MiniRedis.Client
