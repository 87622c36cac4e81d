/- GID: MiniRedis/Server/Limits
   generality: I
   digest: Of the configured limits on a request only its size is checked. -/

import MiniRedis.Client.RequestTrees
import MiniRedis.Protocol.RequestSizes
import MiniRedis.Server.Replies
import MiniRedis.Service.Containers

set_option autoImplicit false
set_option relaxedAutoImplicit false

namespace MiniRedis.Server

open MiniRedis.Base MiniRedis.Python MiniRedis.Protocol MiniRedis.Commands MiniRedis.Service
  MiniRedis.Client

/-! ### What the limits say -/

/-- The limits of `ResourceLimits` on one request. -/
structure ResourceLimits where
  maxRequestSizeBytes : ℤ
  maxArrayItems : ℤ
  maxRespDepth : ℤ
  maxBlobSizeBytes : ℤ

mutual

/-- How deep arrays are nested in a value. -/
def nestingDepth : RespValue → ℕ
  | .array items => 1 + nestingDepths items
  | _ => 0

def nestingDepths : List RespValue → ℕ
  | [] => 0
  | item :: items => max (nestingDepth item) (nestingDepths items)

end

mutual

/-- The blob strings at all depths of a value. -/
def blobStrings : RespValue → List String
  | .blobString value => [value]
  | .array items => blobStringsOf items
  | _ => []

def blobStringsOf : List RespValue → List String
  | [] => []
  | item :: items => blobStrings item ++ blobStringsOf items

end

/-- The session sends a reply to the chunk, and the reply is no error. A limit below zero lets as
many of the non-empty chunks through as zero does. -/
def AnswersWithoutError (limits : ResourceLimits) (chunk : Bytes) (s : Session) : Prop :=
  ∃ reply, (handle limits.maxRequestSizeBytes.toNat [chunk] s).sent = s.sent ++ reply ∧
    reply ≠ [] ∧ reply.head? ≠ (encodeUtf8 "-").head?

/-- The chunk is a request that keeps to all limits. -/
def WithinLimits (limits : ResourceLimits) (chunk : Bytes) : Prop :=
  ∃ items, decode chunk = .ok (.array items) ∧
    (items.length : ℤ) ≤ limits.maxArrayItems ∧
    (nestingDepth (.array items) : ℤ) ≤ limits.maxRespDepth ∧
    (∀ blob ∈ blobStrings (.array items), (byteLength blob : ℤ) ≤ limits.maxBlobSizeBytes) ∧
    (chunk.length : ℤ) ≤ limits.maxRequestSizeBytes

/-- Whatever is answered without an error keeps to all limits. No chunk is longer than a Python
object can be. -/
def EnforcesLimits (limits : ResourceLimits) : Prop :=
  ∀ chunk s, chunk.length ≤ maxSize → AnswersWithoutError limits chunk s → WithinLimits limits chunk

/-- The bytes of the shortest request with so many items that is answered without an error:
`PING`, `GET`, `SET` or `SREM` and empty arguments, all as simple strings. -/
def shortestWith (count : ℕ) : ℕ :=
  3 + digits count + 3 * count + if count = 2 ∨ count = 3 then 3 else 4

/-- The size limit alone lets no request through that breaks another limit: it is too small for any
request that is answered, or else nesting is allowed, it is too small for one item more than
allowed, and too small for a `PING` of any number of characters and bytes, padded beyond the blob
limit. -/
def SizeImpliesLimits (limits : ResourceLimits) : Prop :=
  let size := min limits.maxRequestSizeBytes (maxSize : ℤ)
  size < shortestWith 1 ∨
    1 ≤ limits.maxRespDepth ∧
    size < shortestWith (max 1 (limits.maxArrayItems + 1)).toNat ∧
    ∀ chars bytes : ℕ, chars ≤ bytes → 4 ≤ bytes → bytes + 7 ≤ 3 * chars →
      limits.maxBlobSizeBytes < bytes → size < 9 + digits chars + bytes

/-! ### Requests that are answered -/

private theorem handle_single {size : ℕ} {chunk : Bytes} {s : Session} {reply : Bytes}
    (replied : (handle size [chunk] s).sent = s.sent ++ reply) (some_reply : reply ≠ []) :
    chunk ≠ [] ∧ chunk.length ≤ size ∧ ∃ state,
      (processRequest chunk).exec s.state = (.ok reply, state) := by
  unfold handle at replied
  split at replied
  · exact (some_reply (by simpa using replied.symm)).elim
  · rename_i nonempty
    split at replied
    · exact (some_reply (by simpa using replied.symm)).elim
    · rename_i allowed
      have fits : chunk.length ≤ size := by
        simpa [isRequestSizeAllowed] using allowed
      split at replied
      · rename_i response state run
        rw [handle] at replied
        rw [← List.append_cancel_left replied]
        exact ⟨nonempty, fits, state, run⟩
      · exact (some_reply (by simpa using replied.symm)).elim

private theorem encode_simpleError_head (version : ℤ) (message : String) :
    (encode version (.simpleError message)).head? = (encodeUtf8 "-").head? := by
  have mark : encodeUtf8 (String.singleton '-') = [45] := by decide
  have mark' : encodeUtf8 "-" = [45] := by decide
  rw [encode, encodeLine, encodeUtf8_append, encodeUtf8_append, mark, mark']
  rfl

private theorem arity_of_hello {command : Command} {version : ℤ}
    (hello : helloVersion command = some version) : validateArity command = .ok () := by
  obtain ⟨name, arguments⟩ := command
  unfold helloVersion at hello
  split at hello
  · rename_i text one
    split at hello
    · rename_i named
      cases named
      cases one
      rfl
    · cases hello
  · cases hello

private theorem known_of_answered {limits : ResourceLimits} {chunk : Bytes} {s : Session}
    (answered : AnswersWithoutError limits chunk s) :
    (chunk.length : ℤ) ≤ limits.maxRequestSizeBytes ∧ ∃ items command,
      decode chunk = .ok (.array items) ∧ parse items = .ok command ∧
      validateArity command = .ok () := by
  obtain ⟨reply, sent, some_reply, no_error⟩ := answered
  obtain ⟨nonempty, fits, state, run⟩ := handle_single sent some_reply
  have positive := List.length_pos_of_ne_nil nonempty
  refine ⟨by omega, ?_⟩
  have refuted : ∀ {message state'},
      (answer chunk).exec s.state ≠ (.ok (.simpleError message), state') := by
    intro message state' error
    rw [processRequest, exec_encoded error] at run
    cases run
    exact no_error (encode_simpleError_head _ _)
  cases decodes : decode chunk with
  | error e =>
    rw [answer_of_refused decodes] at refuted
    exact (refuted rfl).elim
  | ok value =>
    obtain ⟨items, rfl⟩ := decode_array decodes
    rw [answer_of_decoded decodes] at refuted
    refine ⟨items, ?_⟩
    rcases answerItems_cases (refuses_parse items) (List.subset_cons_self _ _) s.state with
      ⟨message, _, h⟩ | ⟨command, version, parsed, hello, -⟩ | ⟨command, parsed, accepted, -, -⟩
    · exact (refuted h).elim
    · exact ⟨command, rfl, parsed, arity_of_hello hello⟩
    · obtain ⟨_, arity, -⟩ := exists_ok_of_bind accepted
      exact ⟨command, rfl, parsed, arity⟩

/-! ### How short such a request can be -/

private theorem name_of_arity {command : Command} (accepted : validateArity command = .ok ()) :
    3 ≤ command.name.toList.length ∧ command.name.toList.any (fun c => 65 ≤ c.toNat) = true ∧
    (command.arguments.length = 0 → command.name ∈ ["PING", "INFO", "DBSIZE", "FLUSHDB"]) ∧
    (3 ≤ command.arguments.length → 4 ≤ command.name.toList.length) := by
  have fixed : ∀ e ∈ SUPPORTED_ARITY, 3 ≤ e.1.toList.length ∧
      e.1.toList.any (fun c => 65 ≤ c.toNat) = true ∧
      (e.2 = 0 → e.1 ∈ ["PING", "INFO", "DBSIZE", "FLUSHDB"]) ∧
      (3 ≤ e.2 → 4 ≤ e.1.toList.length) := by decide +kernel
  have least : ∀ e ∈ MIN_ARITY, 4 ≤ e.1.toList.length ∧
      e.1.toList.any (fun c => 65 ≤ c.toNat) = true ∧
      (e.2 = 0 → e.1 ∈ ["PING", "INFO", "DBSIZE", "FLUSHDB"]) := by decide +kernel
  have listed : ∀ {table : List (String × ℕ)} {name arity}, table.lookup name = some arity →
      (name, arity) ∈ table := by
    intro table name arity found
    obtain ⟨before, after, rfl, -⟩ := List.lookup_eq_some_iff.mp found
    exact List.mem_append_right before List.mem_cons_self
  obtain ⟨exact_arity, least_arity⟩ := arity_of_ok accepted
  cases found : SUPPORTED_ARITY.lookup command.name with
  | some arity =>
    obtain ⟨long, letter, bare, several⟩ := fixed _ (listed found)
    have length := exact_arity arity found
    exact ⟨long, letter, fun none_given => bare (by omega), fun given => several (by omega)⟩
  | none =>
    cases found' : MIN_ARITY.lookup command.name with
    | some arity =>
      obtain ⟨long, letter, bare⟩ := least _ (listed found')
      have length := least_arity arity found found'
      exact ⟨le_trans (by decide) long, letter, fun none_given => bare (by omega), fun _ => long⟩
    | none =>
      rw [validateArity, found, found'] at accepted
      cases accepted

private theorem upper_strip (text : String) :
    ∃ before core after, text.toList = before ++ core ++ after ∧
      (∀ c ∈ before, isSpace c = true) ∧ (∀ c ∈ after, isSpace c = true) ∧
      (upper (strip text)).toList = core.flatMap upperChar := by
  obtain ⟨before, after, same, blank, blank'⟩ := stripChars_spec isSpace text.toList
  refine ⟨before, stripChars isSpace text.toList, after, same, blank, blank', ?_⟩
  rw [upper, strip, String.toList_ofList, String.toList_ofList]

private theorem length_name_le (text : String) :
    (upper (strip text)).toList.length ≤ byteLength text := by
  obtain ⟨before, core, after, same, -, -, mapped⟩ := upper_strip text
  have short := length_upper_le core
  rw [mapped, byteLength_eq, same, charBytes_append, charBytes_append]
  omega

private theorem not_name_of_number (n : ℤ) :
    (upper (strip (toString n))).toList.any (fun c => 65 ≤ c.toNat) = false := by
  have low : ∀ c ∈ (toString n).toList, c.toNat < 65 := by
    intro c member
    rw [toString_int_toList, List.mem_append] at member
    rcases member with sign | digit
    · split at sign
      · rw [List.mem_singleton.mp sign]
        decide
      · exact absurd sign List.not_mem_nil
    · have decimal := Nat.isDigit_of_mem_toDigits (by decide) (by decide) digit
      simp only [Char.isDigit, Bool.and_eq_true, decide_eq_true_eq, ge_iff_le] at decimal
      exact lt_of_le_of_lt (UInt32.le_iff_toNat_le.mp decimal.2) (by decide)
  obtain ⟨before, core, after, same, -, -, mapped⟩ := upper_strip (toString n)
  rw [mapped, List.any_eq_false]
  intro c member
  obtain ⟨d, inside, image⟩ := List.mem_flatMap.mp member
  have small := low d (by rw [same]; simp [inside])
  rw [upperChar_of_lt small, List.mem_singleton] at image
  subst image
  simpa using small

private theorem leastSize_name {item : RespValue} {text : String} {command : Command}
    (token : coerceToken item = .ok text) (name : command.name = upper (strip text))
    (accepted : validateArity command = .ok ()) :
    3 + command.name.toList.length ≤ leastSize item := by
  have short := length_name_le text
  rw [name]
  cases item with
  | blobString value =>
    cases token
    rw [leastSize]
    omega
  | simpleString value =>
    cases token
    rw [leastSize]
    omega
  | number n =>
    cases token
    have letter := (name_of_arity accepted).2.1
    rw [name, not_name_of_number] at letter
    cases letter
  | _ => cases token

private theorem leastSize_token {item : RespValue} {text : String}
    (token : coerceToken item = .ok text) : 3 ≤ leastSize item := by
  cases item with
  | blobString value => rw [leastSize]; omega
  | simpleString value => rw [leastSize]; omega
  | number n => rw [leastSize]
  | _ => cases token

private theorem leastSizes_tokens {items : List RespValue}
    (tokens : ∀ item ∈ items, ∃ text, coerceToken item = .ok text) :
    3 * items.length ≤ leastSizes items := by
  induction items with
  | nil => exact Nat.zero_le _
  | cons item items ih =>
    rw [List.forall_mem_cons] at tokens
    obtain ⟨⟨text, token⟩, tokens⟩ := tokens
    have first := leastSize_token token
    have later := ih tokens
    rw [leastSizes, List.length_cons]
    omega

private theorem leastSize_le_leastSizes {item : RespValue} {items : List RespValue}
    (member : item ∈ items) : leastSize item ≤ leastSizes items := by
  induction items with
  | nil => cases member
  | cons first items ih =>
    rw [leastSizes]
    rcases List.mem_cons.mp member with rfl | later
    · omega
    · have := ih later
      omega

private theorem shortestWith_le {chunk : Bytes} {items : List RespValue} {command : Command}
    (decodes : decode chunk = .ok (.array items)) (parsed : parse items = .ok command)
    (accepted : validateArity command = .ok ()) :
    1 ≤ items.length ∧ shortestWith items.length ≤ chunk.length := by
  have least := leastSize_le_of_decode decodes
  obtain ⟨item, rest, text, rfl, token, name, arguments, tokens⟩ := parse_spec parsed
  obtain ⟨long, -, bare, several⟩ := name_of_arity accepted
  have first := leastSize_name token name accepted
  have later :=
    leastSizes_tokens (fun other member => tokens other (List.mem_cons_of_mem item member))
  have four : rest.length = 0 → 4 ≤ command.name.toList.length := by
    intro alone
    have listed := bare (by omega)
    simp only [List.mem_cons, List.not_mem_nil, or_false] at listed
    rcases listed with h | h | h | h <;> rw [h] <;> decide
  rw [leastSize, leastSizes, List.length_cons] at least
  rw [shortestWith, List.length_cons]
  refine ⟨by omega, ?_⟩
  split_ifs <;> omega

private theorem nestingDepths_tokens {items : List RespValue}
    (tokens : ∀ item ∈ items, ∃ text, coerceToken item = .ok text) : nestingDepths items = 0 := by
  induction items with
  | nil => rfl
  | cons item items ih =>
    rw [List.forall_mem_cons] at tokens
    obtain ⟨⟨text, token⟩, tokens⟩ := tokens
    rw [nestingDepths, ih tokens]
    cases item with
    | blobString | simpleString | number => rfl
    | _ => cases token

private theorem mem_of_blobStringsOf {items : List RespValue} {blob : String}
    (tokens : ∀ item ∈ items, ∃ text, coerceToken item = .ok text)
    (inside : blob ∈ blobStringsOf items) : .blobString blob ∈ items := by
  induction items with
  | nil => cases inside
  | cons item items ih =>
    rw [List.forall_mem_cons] at tokens
    obtain ⟨⟨text, token⟩, tokens⟩ := tokens
    rw [blobStringsOf, List.mem_append] at inside
    rcases inside with here | later
    · cases item with
      | blobString value =>
        obtain rfl := List.mem_singleton.mp here
        exact List.mem_cons_self
      | simpleString | number => cases here
      | _ => cases token
    · exact List.mem_cons_of_mem _ (ih tokens later)

private theorem narrow_of_flushdb {core : List Char}
    (mapped : core.flatMap upperChar = "FLUSHDB".toList) :
    charBytes core + 7 ≤ 3 * core.length := by
  have letters : "FLUSHDB".toList = ['F', 'L', 'U', 'S', 'H', 'D', 'B'] := by decide
  rw [letters] at mapped
  cases core with
  | nil => cases mapped
  | cons c cs =>
    rw [List.flatMap_cons] at mapped
    rw [charBytes_cons, List.length_cons]
    rcases upperChar_cases c with ⟨a, image, credit⟩ | ⟨a, b, more, image, -, short, narrow⟩
    · rw [image, List.singleton_append] at mapped
      obtain ⟨rfl, later⟩ := List.cons.inj mapped
      have rest := charBytes_of_upper later (by decide) (by decide)
      have sum : (['L', 'U', 'S', 'H', 'D', 'B'].map letterCredit).sum = 11 := by decide
      have first := credit (by decide)
      omega
    · rw [image] at mapped short
      obtain ⟨rfl, second⟩ := List.cons.inj mapped
      obtain ⟨rfl, later⟩ := List.cons.inj second
      match more, later, short with
      | [], later, _ =>
        have rest := charBytes_of_upper later (by decide) (by decide)
        have sum : (['U', 'S', 'H', 'D', 'B'].map letterCredit).sum = 9 := by decide
        omega
      | [u], later, _ =>
        obtain ⟨rfl, third⟩ := List.cons.inj later
        have rest := charBytes_of_upper third (by decide) (by decide)
        have sum : (['S', 'H', 'D', 'B'].map letterCredit).sum = 7 := by decide
        omega
      | _ :: _ :: _, _, short =>
        simp only [List.length_cons] at short
        omega

/-- The characters of a name without arguments are narrow: with three bytes each they would have
seven bytes more. -/
private theorem narrow_of_name {text : String}
    (listed : upper (strip text) ∈ ["PING", "INFO", "DBSIZE", "FLUSHDB"]) :
    byteLength text + 7 ≤ 3 * text.toList.length := by
  obtain ⟨before, core, after, same, blank, blank', mapped⟩ := upper_strip text
  have narrow := charBytes_of_blank blank
  have narrow' := charBytes_of_blank blank'
  have narrow_core : charBytes core + 7 ≤ 3 * core.length := by
    simp only [List.mem_cons, List.not_mem_nil, or_false] at listed
    rcases listed with h | h | h | h
    · rw [h] at mapped
      exact charBytes_of_upper mapped.symm (by decide) (by decide)
    · rw [h] at mapped
      exact charBytes_of_upper mapped.symm (by decide) (by decide)
    · rw [h] at mapped
      have := charBytes_of_upper mapped.symm (by decide) (by decide)
      have credit : ("DBSIZE".toList.map letterCredit).sum = 10 := by decide
      omega
    · rw [h] at mapped
      exact narrow_of_flushdb mapped.symm
  rw [byteLength_eq, same, charBytes_append, charBytes_append, List.length_append,
    List.length_append]
  omega

private theorem padded_le {chunk : Bytes} {items : List RespValue} {command : Command}
    {blob : String} (decodes : decode chunk = .ok (.array items))
    (parsed : parse items = .ok command) (accepted : validateArity command = .ok ())
    (inside : blob ∈ blobStrings (.array items)) :
    ∃ chars bytes, chars ≤ bytes ∧ 4 ≤ bytes ∧ bytes + 7 ≤ 3 * chars ∧ byteLength blob ≤ bytes ∧
      9 + digits chars + bytes ≤ chunk.length := by
  have least := leastSize_le_of_decode decodes
  obtain ⟨item, rest, text, rfl, token, name, arguments, tokens⟩ := parse_spec parsed
  obtain ⟨long, -, bare, -⟩ := name_of_arity accepted
  have member := mem_of_blobStringsOf tokens inside
  have first := leastSize_name token name accepted
  have characters := length_le_byteLength blob
  have count := digits_pos (item :: rest).length
  rw [leastSize, leastSizes] at least
  cases rest with
  | nil =>
    -- The blob is the name.
    obtain rfl := List.mem_singleton.mp member
    cases token
    have listed := bare arguments
    have four : 4 ≤ command.name.toList.length := by
      simp only [List.mem_cons, List.not_mem_nil, or_false] at listed
      rcases listed with h | h | h | h <;> rw [h] <;> decide
    rw [name] at listed four
    have short := length_name_le blob
    rw [leastSizes, leastSize] at least
    exact ⟨blob.toList.length, byteLength blob, characters, by omega, narrow_of_name listed, le_rfl,
      by omega⟩
  | cons second rest =>
    -- Another item leaves room for a count of bytes in place of the count of characters.
    let bytes := max (byteLength blob) 4
    refine ⟨bytes, bytes, le_rfl, le_max_right _ _, by omega, le_max_left _ _, ?_⟩
    have fewer := (digits_mono (charBytes_le_four_mul blob.toList)).trans (digits_four_mul _)
    rw [← byteLength_eq] at fewer
    have four : digits 4 = 1 := rfl
    have sizes : 17 + digits blob.toList.length + byteLength blob ≤ chunk.length + 5 ∧
        16 ≤ chunk.length := by
      have others : 3 * (second :: rest).length ≤ leastSizes (second :: rest) := leastSizes_tokens
        (fun other listed => tokens other (List.mem_cons_of_mem item listed))
      rw [List.length_cons] at others
      rcases List.mem_cons.mp member with rfl | later
      · cases token
        have short := length_name_le blob
        rw [← name] at short
        rw [leastSize] at least
        have positive := digits_pos blob.toList.length
        omega
      · have here := leastSize_le_leastSizes later
        rw [leastSize] at here
        have positive := digits_pos blob.toList.length
        omega
    rcases le_or_gt 4 (byteLength blob) with large | small
    · have same : bytes = byteLength blob := max_eq_left large
      rw [same]
      omega
    · have same : bytes = 4 := max_eq_right small.le
      rw [same, four]
      omega

/-! ### Requests as short as possible -/

private def Answerable (items : List RespValue) : Prop :=
  ∃ reply state, (encoded (answerItems items)).exec firstSession.state = (.ok reply, state) ∧
    reply ≠ [] ∧ reply.head? ≠ (encodeUtf8 "-").head?

private theorem Answerable.answers {limits : ResourceLimits} {chunk : Bytes}
    {items : List RespValue} (answerable : Answerable items)
    (decodes : decode chunk = .ok (.array items))
    (fits : (chunk.length : ℤ) ≤ limits.maxRequestSizeBytes) :
    AnswersWithoutError limits chunk firstSession := by
  obtain ⟨reply, state, run, some_reply, no_error⟩ := answerable
  have nonempty : chunk ≠ [] := by
    rintro rfl
    have least := leastSize_le_of_decode decodes
    rw [leastSize, List.length_nil] at least
    omega
  have processed : (processRequest chunk).exec firstSession.state = (.ok reply, state) := by
    rw [processRequest, answer_of_decoded decodes]
    exact run
  have allowed : isRequestSizeAllowed limits.maxRequestSizeBytes.toNat chunk.length = true := by
    rw [isRequestSizeAllowed, decide_eq_true_eq]
    omega
  refine ⟨reply, ?_, some_reply, no_error⟩
  rw [handle, if_neg nonempty, if_neg (by simp [allowed]), processed]
  rfl

private def bareItems (name : String) (count : ℕ) : List RespValue :=
  (name :: List.replicate count "").map .simpleString

private theorem parse_bareItems {name : String} (plain : strip name = name) (given : name ≠ "")
    (count : ℕ) : parse (bareItems name count) = .ok ⟨upper name, List.replicate count ""⟩ := by
  have read : ∀ texts : List String,
      (texts.map RespValue.simpleString).mapM coerceToken = .ok texts := by
    intro texts
    induction texts with
    | nil => rfl
    | cons text texts ih =>
      rw [List.map_cons, List.mapM_cons, ih]
      rfl
  have some_items : bareItems name count ≠ [] := List.cons_ne_nil _ _
  rw [parse, if_neg some_items, bareItems, read, bind_ok]
  simp only [List.headD_cons, List.tail_cons, plain]
  rw [if_neg given]

private theorem answerable_srem {count : ℕ} (several : 2 ≤ count) :
    Answerable (bareItems "SREM" count) := by
  obtain ⟨more, rfl⟩ : ∃ more, count = more + 2 := ⟨count - 2, by omega⟩
  have plain : strip "SREM" = "SREM" := by decide
  have parsed := parse_bareItems plain (by decide) (more + 2)
  have uppercase : upper "SREM" = "SREM" := by decide
  rw [uppercase] at parsed
  have accepted : validate ⟨"SREM", List.replicate (more + 2) ""⟩ = .ok () := by
    have arity : validateArity ⟨"SREM", List.replicate (more + 2) ""⟩ = .ok () := by
      have unlisted : SUPPORTED_ARITY.lookup "SREM" = none := by decide
      have listed : MIN_ARITY.lookup "SREM" = some 2 := by decide
      simp [validateArity, unlisted, listed]
    rw [validate, arity]
    rfl
  have outcome : ((execute ⟨"SREM", List.replicate (more + 2) ""⟩).exec
      firstSession.state.service).1 = .ok (.number 0) := by
    rw [List.replicate_succ, List.replicate_succ, execute_typed (.srem "" (List.replicate more "")),
      performTyped_reply]
    rfl
  have answer := answerItems_command parsed accepted (show "SREM" ≠ "HELLO" by decide)
  rcases exec_answer_command accepted firstSession.state with
    ⟨value, context, -, result, h⟩ | ⟨e, -, result, -⟩
  · have number : value = .number 0 := by
      rw [outcome] at result
      rcases result with result | ⟨message, result, -⟩
      · exact (Except.ok.inj result).symm
      · cases result
    subst number
    rw [← answer] at h
    refine ⟨_, _, exec_encoded h, ?_, ?_⟩
    · have bytes : encodeLine ':' (toString (0 : ℤ)) ≠ [] := by decide
      exact bytes
    · have bytes : (encodeLine ':' (toString (0 : ℤ))).head? ≠ (encodeUtf8 "-").head? := by decide
      exact bytes
  · rw [outcome] at result
    cases result

private theorem answerable_of_reply {items : List RespValue} {reply : Bytes}
    (run : ((encoded (answerItems items)).exec firstSession.state).1 = .ok reply)
    (some_reply : reply ≠ []) (no_error : reply.head? ≠ (encodeUtf8 "-").head?) :
    Answerable items :=
  ⟨reply, _, Prod.ext run rfl, some_reply, no_error⟩

private theorem answerable_ping : Answerable (bareItems "PING" 0) := by
  have reply : ((encoded (answerItems (bareItems "PING" 0))).exec firstSession.state).1 =
      .ok (encodeUtf8 "+PONG\r\n") := by decide +kernel
  exact answerable_of_reply reply (by decide) (by decide)

private theorem answerable_bare (count : ℕ) :
    ∃ name : String, name.toList.length = (if count + 1 = 2 ∨ count + 1 = 3 then 3 else 4) ∧
      isAscii name = true ∧ '\r' ∉ name.toList ∧ Answerable (bareItems name count) := by
  match count with
  | 0 => exact ⟨"PING", by decide, by decide, by decide, answerable_ping⟩
  | 1 =>
    have reply : ((encoded (answerItems (bareItems "GET" 1))).exec firstSession.state).1 =
        .ok (encodeUtf8 "$-1\r\n") := by decide +kernel
    exact ⟨"GET", by decide, by decide, by decide,
      answerable_of_reply reply (by decide) (by decide)⟩
  | 2 =>
    have reply : ((encoded (answerItems (bareItems "SET" 2))).exec firstSession.state).1 =
        .ok (encodeUtf8 "+OK\r\n") := by decide +kernel
    exact ⟨"SET", by decide, by decide, by decide,
      answerable_of_reply reply (by decide) (by decide)⟩
  | count + 3 =>
    refine ⟨"SREM", ?_, by decide, by decide, answerable_srem (by omega)⟩
    rw [if_neg (by omega)]
    decide

private theorem encodeLine_length {mark : Char} (ascii : mark.toNat < 128) (text : String) :
    (encodeLine mark text).length = 3 + byteLength text := by
  have one : byteLength (String.singleton mark) = 1 := by
    rw [byteLength_eq, String.toList_singleton, charBytes_cons,
      (utf8Size_eq_one_iff mark).mpr ascii]
    rfl
  have newline : byteLength "\r\n" = 2 := by decide
  rw [encodeLine, encodeUtf8_append, encodeUtf8_append, List.length_append, List.length_append]
  change byteLength _ + byteLength _ + byteLength _ = _
  rw [one, newline]
  omega

private theorem byteLength_toString (n : ℕ) : byteLength (toString n) = digits n := by
  have ascii := isAscii_toString (n : ℤ)
  rw [toString_natCast] at ascii
  rw [(byteLength_eq_iff _).mpr ascii, length_toString]

private theorem encodeItems_empty (count : ℕ) :
    (encodeItems 2 ((List.replicate count "").map .simpleString)).length = 3 * count := by
  induction count with
  | zero => rfl
  | succ count ih =>
    have empty : (encodeLine '+' "").length = 3 := by decide
    rw [List.replicate_succ, List.map_cons, encodeItems, encode, List.length_append, ih, empty]
    omega

private theorem shortest_answered {limits : ResourceLimits} (count : ℕ)
    (fits : (shortestWith (count + 1) : ℤ) ≤ min limits.maxRequestSizeBytes maxSize) :
    ∃ chunk items, chunk.length ≤ maxSize ∧ decode chunk = .ok (.array items) ∧
      items.length = count + 1 ∧ AnswersWithoutError limits chunk firstSession := by
  obtain ⟨name, length, ascii, plain, answerable⟩ := answerable_bare count
  have size : (encode 2 (.array (bareItems name count))).length = shortestWith (count + 1) := by
    rw [encode, bareItems, List.map_cons, encodeItems, encode, List.length_append,
      List.length_append, encodeItems_empty, encodeLine_length (by decide),
      encodeLine_length (by decide), byteLength_toString,
      (byteLength_eq_iff name).mpr ascii, length, shortestWith]
    simp only [List.length_cons, List.length_map, List.length_replicate]
    omega
  have fits' : (encode 2 (.array (bareItems name count))).length ≤ maxSize := by
    rw [size]
    omega
  have decodes : decode (encode 2 (.array (bareItems name count))) =
      .ok (.array (bareItems name count)) := by
    refine decode_tree (fun item member => ?_) fits'
    obtain ⟨text, listed, rfl⟩ := List.mem_map.mp member
    rcases List.mem_cons.mp listed with rfl | empty
    · exact .simpleString ascii (fun inside => plain (inside.subset List.mem_cons_self))
    · rw [List.eq_of_mem_replicate empty]
      exact .simpleString (by decide) (by decide)
  refine ⟨_, _, fits', decodes, by simp [bareItems], answerable.answers decodes ?_⟩
  rw [size]
  omega

private theorem exists_blanks (chars more : ℕ) (enough : more ≤ 2 * chars) :
    ∃ blanks : List Char, blanks.length = chars ∧ charBytes blanks = chars + more ∧
      ∀ c ∈ blanks, isSpace c = true := by
  induction chars generalizing more with
  | zero =>
    exact ⟨[], rfl, by rw [charBytes_nil]; omega, fun _ member => absurd member List.not_mem_nil⟩
  | succ chars ih =>
    have spend : ∀ (c : Char) (size : ℕ), c.utf8Size = size → isSpace c = true →
        size ≤ more + 1 → more + 1 - size ≤ 2 * chars →
        ∃ blanks : List Char, blanks.length = chars + 1 ∧ charBytes blanks = chars + 1 + more ∧
          ∀ c ∈ blanks, isSpace c = true := by
      rintro c _ rfl blank affordable left
      obtain ⟨blanks, length, size, all_blank⟩ := ih _ left
      refine ⟨c :: blanks, by rw [List.length_cons, length], ?_, ?_⟩
      · rw [charBytes_cons, size]
        omega
      · rw [List.forall_mem_cons]
        exact ⟨blank, all_blank⟩
    match more with
    | 0 => exact spend ' ' 1 (by decide) (by decide) (by omega) (by omega)
    | 1 => exact spend '\u00a0' 2 (by decide) (by decide) (by omega) (by omega)
    | more + 2 => exact spend '\u3000' 3 (by decide) (by decide) (by omega) (by omega)

private theorem parse_padded {core blanks : List Char}
    (core_is : core = ['P', 'I', 'N', 'G'] ∨ core = ['P', 'ı', 'N', 'G'])
    (blank : ∀ c ∈ blanks, isSpace c = true) :
    parse [.blobString (String.ofList (core ++ blanks))] = .ok ⟨"PING", []⟩ := by
  have stripped : stripChars isSpace (core ++ blanks) = core := by
    have front : (core ++ blanks).dropWhile isSpace = core ++ blanks := by
      rcases core_is with rfl | rfl <;> rfl
    have back : core.reverse.dropWhile isSpace = core.reverse := by
      rcases core_is with rfl | rfl <;> rfl
    rw [stripChars, front, List.reverse_append,
      List.dropWhile_append_of_pos (fun c member => blank c (List.mem_reverse.mp member)), back,
      List.reverse_reverse]
  have read : [RespValue.blobString (String.ofList (core ++ blanks))].mapM coerceToken =
      .ok [String.ofList (core ++ blanks)] := rfl
  have name : strip (String.ofList (core ++ blanks)) = String.ofList core := by
    rw [strip, String.toList_ofList, stripped]
  rw [parse, if_neg (List.cons_ne_nil _ _), read, bind_ok]
  simp only [List.headD_cons, List.tail_cons, name]
  rcases core_is with rfl | rfl <;> rfl

private theorem exists_padded {chars bytes : ℕ} (short : chars ≤ bytes) (long : 4 ≤ bytes)
    (narrow : bytes + 7 ≤ 3 * chars) :
    ∃ value : List Char, value.length = chars ∧ charBytes value = bytes ∧
      parse [.blobString (String.ofList value)] = .ok ⟨"PING", []⟩ := by
  rcases Nat.lt_or_ge (bytes + 7) (3 * chars) with plain | full
  · obtain ⟨blanks, length, size, blank⟩ :=
      exists_blanks (chars - 4) (bytes - chars) (by omega)
    refine ⟨['P', 'I', 'N', 'G'] ++ blanks, ?_, ?_, parse_padded (Or.inl rfl) blank⟩
    · rw [List.length_append, length]
      change 4 + _ = _
      omega
    · have core : charBytes ['P', 'I', 'N', 'G'] = 4 := by decide
      rw [charBytes_append, size, core]
      omega
  · obtain ⟨blanks, length, size, blank⟩ :=
      exists_blanks (chars - 4) (bytes - chars - 1) (by omega)
    refine ⟨['P', 'ı', 'N', 'G'] ++ blanks, ?_, ?_, parse_padded (Or.inr rfl) blank⟩
    · rw [List.length_append, length]
      change 4 + _ = _
      omega
    · have core : charBytes ['P', 'ı', 'N', 'G'] = 5 := by decide
      rw [charBytes_append, size, core]
      omega

private def blobRequest (value : List Char) : List Char :=
  lineChars '*' "1" ++ (lineChars '$' (toString value.length) ++ (value ++ ['\r', '\n']))

private theorem charBytes_lineChars {mark : Char} (ascii : mark.toNat < 128) (text : String) :
    charBytes (lineChars mark text) = 3 + byteLength text := by
  have newline : charBytes ['\r', '\n'] = 2 := by decide
  rw [lineChars, charBytes_cons, (utf8Size_eq_one_iff mark).mpr ascii, charBytes_append, newline,
    byteLength_eq]
  omega

private theorem length_blobRequest (value : List Char) :
    (encodeUtf8 (String.ofList (blobRequest value))).length =
      9 + digits value.length + charBytes value := by
  have newline : charBytes ['\r', '\n'] = 2 := by decide
  have one : byteLength "1" = 1 := by decide
  change byteLength _ = _
  rw [byteLength_eq, String.toList_ofList, blobRequest, charBytes_append, charBytes_append,
    charBytes_append, charBytes_lineChars (by decide), charBytes_lineChars (by decide), one,
    byteLength_toString, newline]
  omega

private theorem decode_blobRequest {value : List Char} (small : value.length < readableBound) :
    decode (encodeUtf8 (String.ofList (blobRequest value))) =
      .ok (.array [.blobString (String.ofList value)]) := by
  have one : (1 : ℤ).natAbs < readableBound := lt_trans (by decide) maxSize_lt_readableBound
  have chars : blobRequest value = '*' :: ((toString (1 : ℤ)).toList ++ ['\r', '\n'] ++
      [value].flatMap (fun v => lineChars '$' (toString v.length) ++ (v ++ ['\r', '\n']))) := by
    have digit : (toString (1 : ℤ)).toList = ['1'] := by decide
    rw [digit, List.flatMap_singleton]
    rfl
  obtain ⟨depth, deep⟩ : ∃ depth, (blobRequest value).length = depth + 1 :=
    ⟨_, by rw [chars, List.length_cons]⟩
  have items : Consumes id ((decodeValue (depth + 1)).times [value].length)
      ([value].flatMap (fun v => lineChars '$' (toString v.length) ++ (v ++ ['\r', '\n'])))
      (.ok ([value].map (fun v => .blobString (String.ofList v)))) := by
    refine consumes_times (fun v member => ?_)
    rw [List.mem_singleton.mp member]
    exact consumes_counted small depth
  have request : Consumes id (decodeValue (depth + 1 + 1)) (blobRequest value)
      (.ok (.array [.blobString (String.ofList value)])) := by
    rw [chars]
    refine consumes_marked (fun _ => rfl) ?_
    refine (consumes_readInteger one).bind ?_
    rw [if_neg (by decide)]
    exact items.map RespValue.array
  obtain ⟨_, run, rfl⟩ := request (blobRequest value) [] (List.append_nil _).symm
  rw [decode_encodeUtf8_iff, String.toList_ofList, deep]
  exact run

private theorem padded_answered {limits : ResourceLimits} {chars bytes : ℕ} (short : chars ≤ bytes)
    (long : 4 ≤ bytes) (narrow : bytes + 7 ≤ 3 * chars)
    (fits : (9 + digits chars + bytes : ℤ) ≤ min limits.maxRequestSizeBytes maxSize) :
    ∃ chunk blob, chunk.length ≤ maxSize ∧ decode chunk = .ok (.array [.blobString blob]) ∧
      byteLength blob = bytes ∧ AnswersWithoutError limits chunk firstSession := by
  obtain ⟨value, rfl, rfl, parsed⟩ := exists_padded short long narrow
  have length := length_blobRequest value
  have bound := maxSize_lt_readableBound
  have decodes := decode_blobRequest (show value.length < readableBound by omega)
  have same : answerItems [.blobString (String.ofList value)] =
      answerItems (bareItems "PING" 0) := by
    have ping : parse (bareItems "PING" 0) = .ok ⟨"PING", []⟩ :=
      parse_bareItems (by decide) (by decide) 0
    rw [answerItems, answerItems, handleItems, handleItems, parsed, ping]
  have answerable : Answerable [.blobString (String.ofList value)] := by
    rw [Answerable, same]
    exact answerable_ping
  refine ⟨_, _, ?_, decodes, ?_, answerable.answers decodes ?_⟩
  · omega
  · rw [byteLength_eq, String.toList_ofList]
  · omega

/-! ### Which limits are enforced -/

private theorem shortestWith_mono {n m : ℕ} (some_items : 1 ≤ n) (fewer : n ≤ m) :
    shortestWith n ≤ shortestWith m := by
  have digits := digits_mono fewer
  unfold shortestWith
  split_ifs <;> omega

/-- The configured limits are enforced exactly where the limit on the size of a request, which
alone is checked, is too small for a request that breaks another one. -/
theorem limits_enforced_iff (limits : ResourceLimits) :
    EnforcesLimits limits ↔ SizeImpliesLimits limits := by
  constructor
  · intro enforces
    by_contra missing
    rw [SizeImpliesLimits, not_or, not_lt] at missing
    obtain ⟨served, missing⟩ := missing
    refine missing ⟨?_, ?_, ?_⟩
    · obtain ⟨chunk, items, small, decodes, -, answered⟩ := shortest_answered 0 served
      obtain ⟨items', decodes', -, depth, -, -⟩ := enforces chunk firstSession small answered
      rw [nestingDepth] at depth
      omega
    · by_contra room
      obtain ⟨count, natural⟩ : ∃ count, (max 1 (limits.maxArrayItems + 1)).toNat = count + 1 :=
        ⟨(max 1 (limits.maxArrayItems + 1)).toNat - 1, by omega⟩
      rw [natural, not_lt] at room
      obtain ⟨chunk, items, small, decodes, length, answered⟩ := shortest_answered count room
      obtain ⟨items', decodes', within, -, -, -⟩ := enforces chunk firstSession small answered
      rw [decodes] at decodes'
      cases decodes'
      omega
    · intro chars bytes short long narrow beyond
      by_contra room
      obtain ⟨chunk, blob, small, decodes, length, answered⟩ :=
        padded_answered short long narrow (not_lt.mp room)
      obtain ⟨items', decodes', -, -, within, -⟩ := enforces chunk firstSession small answered
      rw [decodes] at decodes'
      cases decodes'
      have := within blob (by simp [blobStrings, blobStringsOf])
      omega
  · intro implied chunk s small answered
    obtain ⟨fits, items, command, decodes, parsed, accepted⟩ := known_of_answered answered
    obtain ⟨some_items, least⟩ := shortestWith_le decodes parsed accepted
    obtain ⟨-, -, -, -, -, -, -, tokens⟩ := parse_spec parsed
    rcases implied with none_served | ⟨depth, count, padded⟩
    · have shortest := shortestWith_mono le_rfl some_items
      omega
    · refine ⟨items, decodes, ?_, ?_, fun blob inside => ?_, fits⟩
      · by_contra more
        have shortest := shortestWith_mono (n := (max 1 (limits.maxArrayItems + 1)).toNat)
          (m := items.length) (by omega) (by omega)
        omega
      · rw [nestingDepth, nestingDepths_tokens tokens]
        omega
      · by_contra beyond
        obtain ⟨chars, bytes, short, long, narrow, holds, size⟩ :=
          padded_le decodes parsed accepted inside
        have := padded chars bytes short long narrow (by omega)
        omega

private def setRequest : Bytes := encodeUtf8 "*3\r\n$3\r\nSET\r\n$1\r\nk\r\n$1\r\nv\r\n"

theorem array_limit_not_enforced : ¬ EnforcesLimits ⟨1024, 2, 4, 16⟩ := by
  intro enforces
  have sent : (handle 1024 [setRequest] firstSession).sent = encodeUtf8 "+OK\r\n" := by
    decide +kernel
  obtain ⟨items, decodes, within, -⟩ := enforces setRequest firstSession (by decide +kernel)
    ⟨encodeUtf8 "+OK\r\n", sent, by decide, by decide⟩
  have count : ((decode setRequest).bind requestItems).map List.length = .ok 3 := by decide +kernel
  rw [decodes] at count
  have three : items.length = 3 := Except.ok.inj count
  rw [three] at within
  exact absurd within (by decide)

end MiniRedis.Server
