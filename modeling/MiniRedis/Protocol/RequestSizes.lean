/- GID: MiniRedis/Protocol/RequestSizes
   generality: I
   digest: A request is at least as long as its count, its marks and its items. -/

import MiniRedis.Protocol.RequestDecoder

set_option autoImplicit false
set_option relaxedAutoImplicit false

namespace MiniRedis.Protocol

open MiniRedis.Base MiniRedis.Python

mutual

/-- The least bytes from which a value decodes. -/
def leastSize : RespValue → ℕ
  | .simpleString value => 3 + byteLength value
  | .blobString value => 5 + digits value.toList.length + byteLength value
  | .number _ => 3
  | .array items => 3 + digits items.length + leastSizes items
  | _ => 0

def leastSizes : List RespValue → ℕ
  | [] => 0
  | item :: items => leastSize item + leastSizes items

end

private theorem takes_readInteger :
    Takes readInteger (fun used n => digits n.natAbs + 2 ≤ charBytes used) := by
  refine takes_readLine.bind (fun used line taken => ?_)
  split
  · exact takes_throw _ _
  · rename_i n parsed
    refine takes_pure ?_
    have enough : digits n.natAbs ≤ line.toList.length := digits_le_of_parseInt
      (by rw [String.ofList_toList]; exact parsed)
    have longer := length_le_charBytes line.toList
    have newline : charBytes ['\r', '\n'] = 2 := by decide
    rw [List.append_nil, taken, charBytes_append, newline]
    omega

private theorem takes_decodeBlobString :
    Takes decodeBlobString (fun used value => leastSize value ≤ charBytes used + 1) := by
  refine takes_readInteger.bind (fun used length count => ?_)
  split
  · exact takes_throw _ _
  · rename_i nonneg
    intro cs value rest run
    obtain ⟨data, _, got, run⟩ := Effect.exists_of_exec_bind run
    cases got
    split at run
    · cases run
    · rename_i complete
      rw [not_or, not_lt, ne_eq, not_not] at complete
      obtain ⟨long, terminated⟩ := complete
      cases run
      refine ⟨cs.take length.toNat ++ ['\r', '\n'], ?_, ?_⟩
      · rw [← terminated, List.append_assoc, ← List.drop_drop, List.take_append_drop,
          List.take_append_drop]
      · have newline : charBytes ['\r', '\n'] = 2 := by decide
        have taken : (cs.take length.toNat).length = length.natAbs := by
          rw [List.length_take]
          omega
        simp only [leastSize, byteLength_eq, String.toList_ofList, taken, charBytes_append, newline]
        omega

private theorem leastSizes_le {pieces : List (List Char)} {items : List RespValue}
    (related : List.Forall₂ (fun used value => leastSize value ≤ charBytes used) pieces items) :
    leastSizes items ≤ charBytes pieces.flatten := by
  induction related with
  | nil => exact Nat.zero_le _
  | cons here _ ih =>
    rw [leastSizes, List.flatten_cons, charBytes_append]
    omega

private theorem takes_decodeArray {item : Decoder RespValue}
    (takes : Takes item (fun used value => leastSize value ≤ charBytes used)) :
    Takes (decodeArray item) (fun used value => leastSize value ≤ charBytes used + 1) := by
  refine takes_readInteger.bind (fun used count taken => ?_)
  split
  · exact takes_throw _ _
  · rename_i nonneg
    refine (takes.times count.toNat).bind (fun later items collected => takes_pure ?_)
    obtain ⟨length, pieces, rfl, related⟩ := collected
    have sizes := leastSizes_le related
    have natural : items.length = count.natAbs := by omega
    rw [List.append_nil, charBytes_append, leastSize, natural]
    omega

private theorem takes_decodeSimpleString :
    Takes decodeSimpleString (fun used value => leastSize value ≤ charBytes used + 1) := by
  refine takes_readLine.bind (fun used line taken => takes_pure ?_)
  have newline : charBytes ['\r', '\n'] = 2 := by decide
  rw [List.append_nil, taken, charBytes_append, newline, leastSize, byteLength_eq]
  omega

private theorem takes_decodeNumber :
    Takes decodeNumber (fun used value => leastSize value ≤ charBytes used + 1) := by
  refine takes_readInteger.bind (fun used n taken => takes_pure ?_)
  rw [List.append_nil, leastSize]
  omega

private theorem takes_decodeValue (depth : ℕ) :
    Takes (decodeValue depth) (fun used value => leastSize value ≤ charBytes used) := by
  induction depth with
  | zero => exact takes_throw _ _
  | succ depth ih =>
    intro cs value rest run
    obtain ⟨data, _, got, run⟩ := Effect.exists_of_exec_bind run
    cases got
    obtain ⟨_, _, stepped, run⟩ := Effect.exists_of_exec_bind run
    cases stepped
    cases cs with
    | nil => cases run
    | cons c cs =>
      -- The mark is one more byte than what its reader takes.
      have marked : ∀ {reader : Decoder RespValue},
          Takes reader (fun used value => leastSize value ≤ charBytes used + 1) →
          reader.exec cs = (.ok value, rest) →
          ∃ used, c :: cs = used ++ rest ∧ leastSize value ≤ charBytes used := by
        intro reader takes run
        obtain ⟨used, rfl, enough⟩ := takes cs value rest run
        have positive := c.utf8Size_pos
        refine ⟨c :: used, rfl, ?_⟩
        rw [charBytes_cons]
        omega
      simp only [List.head?_cons, List.tail_cons] at run
      split at run
      · exact marked (takes_decodeArray ih) run
      · exact marked takes_decodeBlobString run
      · exact marked takes_decodeSimpleString run
      · exact marked takes_decodeNumber run
      · cases run

private theorem length_of_decodeUtf8 {data : Bytes} {text : String}
    (decoded : decodeUtf8 data = some text) : charBytes text.toList = data.length := by
  rw [eq_encodeUtf8_of_decodeUtf8 decoded]
  rfl

/-- A request is at least as long as what it decodes to. -/
theorem leastSize_le_of_decode {data : Bytes} {value : RespValue}
    (decodes : decode data = .ok value) : leastSize value ≤ data.length := by
  unfold decode decodeWithin at decodes
  split at decodes
  · cases decodes
  · rename_i text decoded
    split at decodes
    · rename_i run
      cases decodes
      obtain ⟨used, taken, enough⟩ := takes_decodeValue _ _ _ _ run
      rw [List.append_nil] at taken
      rw [← length_of_decodeUtf8 decoded, taken]
      exact enough
    · cases decodes
    · cases decodes

end MiniRedis.Protocol
