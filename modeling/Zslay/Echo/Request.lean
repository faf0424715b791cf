import Zslay.Echo.Accept
import Zslay.Lib.Text

/-!
# The upgrade request (`echo_server.c`)

What the server reads in the request of a client, and what it answers.  A C string is the list of
its bytes before the NUL, and a pointer into it is the list from there on.
-/

namespace Zslay.Echo

/-- The bytes of a literal. -/
def ascii (s : String) : List UInt8 := s.toList.map fun c => UInt8.ofNat c.toNat

/-- The text of a `char` array: its bytes before the NUL. -/
def cString (buf : List UInt8) : List UInt8 := buf.takeWhile (· ≠ 0)

/-- The text before the first occurrence of `needle`, and the pointer that `strstr` returns. -/
def strstr (haystack needle : List UInt8) : Option (List UInt8 × List UInt8) :=
  Text.find needle haystack

def tolower (c : UInt8) : UInt8 := if 65 ≤ c ∧ c ≤ 90 then c + 32 else c

/-- `strncasecmp` returns 0. -/
def sameIgnoringCase (s t : List UInt8) (n : ℕ) : Bool :=
  (s.take n).map tolower = (t.take n).map tolower

/-- A space or a tab. -/
def isBlank (c : UInt8) : Bool := c = 32 ∨ c = 9

def crlf : List UInt8 := [13, 10]

/-- The loop of `header_value`, at the pointer `line`. -/
def headerValueFrom (name line : List UInt8) : Option (List UInt8) :=
  if line = [] ∨ crlf <+: line then none
  else
    match _h : strstr line crlf with
    | none => none
    | some (text, rest) =>
        if name.length < text.length ∧ line.getD name.length 0 = 58 ∧
            sameIgnoringCase line name name.length then
          let start := (text.drop (name.length + 1)).dropWhile isBlank
          some (start.rdropWhile isBlank)
        else headerValueFrom name (rest.drop 2)
termination_by line.length
decreasing_by
  have hfirst := Text.find_some _h
  have hlen := congrArg List.length hfirst.split
  have hocc : 2 ≤ rest.length := hfirst.occurs.length_le
  simp only [List.length_append, List.length_drop] at hlen ⊢
  omega

/-- `header_value`: the value, or nothing for the result -1. -/
def headerValue (request name : List UInt8) : Option (List UInt8) :=
  match strstr request crlf with
  | none => none
  | some (_, line) => headerValueFrom name (line.drop 2)

/-- `has_token`, for the `value_len` bytes at `value`. -/
def hasToken (value token : List UInt8) : Bool :=
  if value = [] then false
  else
    let part := value.takeWhile (· ≠ 44)
    let word := (part.dropWhile isBlank).rdropWhile isBlank
    if word.length = token.length ∧ sameIgnoringCase word token token.length then true
    else
      match _h : value.drop part.length with
      | [] => false
      | _ :: rest => hasToken rest token
termination_by value.length
decreasing_by
  have hlen := congrArg List.length _h
  simp only [List.length_drop, List.length_cons] at hlen
  omega

def guid : List UInt8 := ascii "258EAFA5-E914-47DA-95CA-C5AB0DC85B11"

/-- The response to an accepted request. -/
def switchingProtocols (accept : List UInt8) : List UInt8 :=
  ascii ("HTTP/1.1 101 Switching Protocols\r\n" ++ "Upgrade: websocket\r\nConnection: Upgrade\r\n") ++
    (ascii "Sec-WebSocket-Accept: " ++ (accept ++ ascii "\r\n\r\n"))

/-- The size of `response`. -/
def ResponseSize : ℕ := 256

/-- `prepare_handshake`: the response, or nothing for the result -1. -/
def prepareHandshake (handshake : List UInt8) : Option (List UInt8) := do
  if ¬ ascii "GET " <+: handshake ∨ strstr handshake (ascii " HTTP/1.1\r\n") = none then none
  let value ← headerValue handshake (ascii "Upgrade")
  if ¬ hasToken value (ascii "websocket") then none
  let value ← headerValue handshake (ascii "Connection")
  if ¬ hasToken value (ascii "Upgrade") then none
  let value ← headerValue handshake (ascii "Sec-WebSocket-Version")
  if value.length ≠ 2 ∨ value ≠ ascii "13" then none
  let value ← headerValue handshake (ascii "Sec-WebSocket-Key")
  if ¬ validWebsocketKey value then none
  let accept := base64Sha1 (sha1_60 (value.take 24 ++ guid))
  let response := switchingProtocols accept
  if ResponseSize ≤ response.length then none
  return response

/-- The end of the request in the first `len` bytes of `buf`, or 0.  Only the bytes from `start` on
are new. -/
def findHandshakeEnd (buf : List UInt8) (len start : ℕ) : ℕ :=
  if len < 4 then 0
  else
    let start := if start > len then len else start
    let start := if start > 3 then start - 3 else 0
    match (List.range' start (len - 3 - start)).find?
      (fun i => (buf.drop i).take 4 = crlf ++ crlf) with
    | some i => i + 4
    | none => 0

/-! ### Fields -/

/-- The line is a field with this name. -/
def isField (name line : List UInt8) : Bool :=
  name.length < line.length ∧ line.getD name.length 0 = 58 ∧
    (line.take name.length).map tolower = name.map tolower

/-- The first field with this name among the lines behind the first one, up to an empty line. -/
def field (request name : List UInt8) : Option (List UInt8) :=
  ((((Text.lines crlf request).drop 1).takeWhile (· ≠ [])).find? (isField name)).map
    fun line => Text.trim isBlank (line.drop (name.length + 1))

/-- A comparison with a line looks at no more than the line. -/
lemma isField_iff {name line text rest : List UInt8} (h : line = text ++ rest) :
    (name.length < text.length ∧ line.getD name.length 0 = 58 ∧
      sameIgnoringCase line name name.length = true) ↔ isField name text = true := by
  simp only [isField, sameIgnoringCase, List.take_length, decide_eq_true_eq]
  refine and_congr_right fun hlt => ?_
  rw [h, List.getD_append _ _ _ _ hlt, List.take_append_of_le_length hlt.le]

/-- The loop goes through the lines one by one. -/
lemma headerValueFrom_eq (name line : List UInt8) : headerValueFrom name line =
    (((Text.lines crlf line).takeWhile (· ≠ [])).find? (isField name)).map
      fun text => Text.trim isBlank (text.drop (name.length + 1)) := by
  induction hn : line.length using Nat.strong_induction_on generalizing line with
  | _ n ih =>
  have hsep : crlf ≠ [] := by decide
  rw [headerValueFrom]
  split
  · rename_i hstop
    rcases hstop with rfl | hempty
    · rw [Text.lines_of_none (by rfl)]
      rfl
    · -- an empty line
      have hfind : Text.find crlf line = some ([], line) :=
        Text.find_eq_some_iff.mpr ⟨rfl, hempty, by simp⟩
      rw [Text.lines_of_some hsep hfind]
      simp
  · rename_i hgo
    push Not at hgo
    split
    · rename_i hnone
      rw [Text.lines_of_none hnone]
      rfl
    · rename_i text rest hsome
      have hfirst := Text.find_some hsome
      have htext : text ≠ [] := by
        rintro rfl
        exact hgo.2 (hfirst.split ▸ hfirst.occurs)
      rw [Text.lines_of_some hsep hsome, List.takeWhile_cons_of_pos (by simpa using htext)]
      split
      · rename_i hyes
        rw [List.find?_cons_of_pos ((isField_iff hfirst.split).mp hyes)]
        rfl
      · rename_i hno
        rw [List.find?_cons_of_neg (fun hyes => hno ((isField_iff hfirst.split).mpr hyes))]
        refine ih _ ?_ _ rfl
        have hlen := congrArg List.length hfirst.split
        have hocc : 2 ≤ rest.length := hfirst.occurs.length_le
        simp only [List.length_append, List.length_drop] at hlen ⊢
        omega

/-- `header_value` finds the first field with the name, in any text. -/
theorem headerValue_eq (request name : List UInt8) : headerValue request name = field request name := by
  unfold headerValue field
  split
  · rename_i hnone
    rw [Text.lines_of_none hnone]
    rfl
  · rename_i text line hsome
    rw [Text.lines_of_some (by decide) hsome, headerValueFrom_eq]
    rfl

/-- The value is a list in which the token occurs, between commas and in any case. -/
def Lists (value token : List UInt8) : Prop :=
  ∃ word ∈ value.splitOn 44, (Text.trim isBlank word).map tolower = token.map tolower

lemma sameIgnoringCase_iff {word token : List UInt8} :
    (word.length = token.length ∧ sameIgnoringCase word token token.length = true) ↔
      word.map tolower = token.map tolower := by
  simp only [sameIgnoringCase, List.take_length, decide_eq_true_eq]
  constructor
  · rintro ⟨hlen, h⟩
    rwa [← hlen, List.take_length] at h
  · intro h
    have hlen : word.length = token.length := by simpa using congrArg List.length h
    exact ⟨hlen, by rwa [← hlen, List.take_length]⟩

/-- `has_token` looks at every part of the list. -/
theorem hasToken_iff {token : List UInt8} (htoken : token ≠ []) (value : List UInt8) :
    hasToken value token = true ↔ Lists value token := by
  induction hn : value.length using Nat.strong_induction_on generalizing value with
  | _ n ih =>
  have hblank : ¬ (Text.trim isBlank []).map tolower = token.map tolower := by
    simpa [Text.trim] using htoken.symm
  rw [hasToken]
  split
  · rename_i hnil
    subst hnil
    simpa [Lists] using hblank
  rename_i hne
  -- the value is its first part, and what comes behind a comma
  have hword : ((value.takeWhile (· ≠ 44)).dropWhile isBlank).rdropWhile isBlank =
      Text.trim isBlank (value.takeWhile (· ≠ 44)) := rfl
  simp only [hword]
  rcases Text.splitOn_cases 44 value with ⟨hend, hparts⟩ | ⟨rest, hend, hparts⟩
  · split
    · rename_i hyes
      exact iff_of_true rfl ⟨_, by rw [hparts]; exact List.mem_singleton_self _,
        sameIgnoringCase_iff.mp hyes⟩
    · rename_i hno
      rw [sameIgnoringCase_iff] at hno
      split
      · simpa [Lists, hparts] using hno
      · rename_i heq
        exact absurd (hend.symm.trans heq) (List.cons_ne_nil _ _).symm
  · split
    · rename_i hyes
      exact iff_of_true rfl ⟨_, by rw [hparts]; exact List.mem_cons_self,
        sameIgnoringCase_iff.mp hyes⟩
    · rename_i hno
      rw [sameIgnoringCase_iff] at hno
      split
      · rename_i heq
        exact absurd (heq.symm.trans hend) (List.cons_ne_nil _ _).symm
      · rename_i c rest' heq
        obtain ⟨-, rfl⟩ := List.cons_eq_cons.mp (hend.symm.trans heq)
        have hlt : rest.length < n := by
          have hlen := congrArg List.length hend
          simp only [List.length_drop, List.length_cons] at hlen
          omega
        rw [ih _ hlt rest rfl, Lists, Lists, hparts, List.exists_mem_cons_iff, or_iff_right hno]

/-! ### The answer -/

/-- The request is an upgrade to a websocket, with the encoding of `nonce` as its key. -/
structure Upgrade (request nonce : List UInt8) : Prop where
  method : ascii "GET " <+: request
  version : ascii " HTTP/1.1\r\n" <:+: request
  upgrade : ∃ value, field request (ascii "Upgrade") = some value ∧ Lists value (ascii "websocket")
  connection : ∃ value, field request (ascii "Connection") = some value ∧
    Lists value (ascii "Upgrade")
  protocol : field request (ascii "Sec-WebSocket-Version") = some (ascii "13")
  length : nonce.length = 16
  key : field request (ascii "Sec-WebSocket-Key") = some (Base64.encode nonce)

/-- The token that accepts a key. -/
def acceptToken (nonce : List UInt8) : List UInt8 :=
  Base64.encode (Sha1.hash (Base64.encode nonce ++ guid))

lemma length_encode_nonce {nonce : List UInt8} (h : nonce.length = 16) :
    (Base64.encode nonce).length = 24 := by
  have hover := (Base64.oneOver_iff (k := 5)).mpr ⟨nonce, h, rfl⟩
  rw [Base64.encode, h, List.length_append, List.length_map, hover.length, List.length_replicate]

lemma base64Sha1_sha1_60 {nonce : List UInt8} (h : nonce.length = 16) :
    base64Sha1 (sha1_60 ((Base64.encode nonce).take 24 ++ guid)) = acceptToken nonce := by
  have hkey := length_encode_nonce h
  have hguid : guid.length = 36 := by decide +kernel
  rw [List.take_of_length_le hkey.le, sha1_60_eq (by rw [List.length_append, hkey, hguid]),
    base64Sha1_eq (Sha1.length_hash _), acceptToken]

/-- The response fits its buffer. -/
lemma length_switchingProtocols (nonce : List UInt8) :
    (switchingProtocols (acceptToken nonce)).length = 129 := by
  have haccept : (acceptToken nonce).length = 28 := by
    have hlen := Sha1.length_hash (Base64.encode nonce ++ guid)
    have hsha := base64Sha1_eq hlen
    rw [acceptToken, ← hsha]
    simp only [base64Sha1, List.length_append, List.length_flatMap, List.length_cons,
      List.length_nil]
    rfl
  have hstatus : (ascii ("HTTP/1.1 101 Switching Protocols\r\n" ++
      "Upgrade: websocket\r\nConnection: Upgrade\r\n")).length = 75 := by
    decide +kernel
  have hfield : (ascii "Sec-WebSocket-Accept: ").length = 22 := by decide +kernel
  have hend : (ascii "\r\n\r\n").length = 4 := by decide +kernel
  rw [switchingProtocols, List.length_append, List.length_append, List.length_append, haccept,
    hstatus, hfield, hend]

/-- `prepare_handshake` accepts the upgrade requests, and answers with the token for their key. -/
theorem prepareHandshake_answers (request response : List UInt8) :
    prepareHandshake request = some response ↔
      ∃ nonce, Upgrade request nonce ∧ response = switchingProtocols (acceptToken nonce) := by
  have hws : ascii "websocket" ≠ [] := by decide +kernel
  have hup : ascii "Upgrade" ≠ [] := by decide +kernel
  unfold prepareHandshake
  simp only [Option.bind_eq_bind, Option.bind_none, Option.ite_none_left_eq_some,
    Option.bind_eq_some_iff, headerValue_eq, hasToken_iff hws, hasToken_iff hup, not_or, not_not,
    Option.pure_def, Option.some.injEq, validWebsocketKey_iff, strstr, ← ne_eq]
  constructor
  · rintro ⟨⟨hmethod, hversion⟩, up, hup, hws, conn, hconn, htoken, proto, hproto, ⟨-, rfl⟩, key, hkey,
      ⟨nonce, hlen, rfl⟩, -, rfl⟩
    rw [base64Sha1_sha1_60 hlen]
    refine ⟨nonce, ⟨hmethod, ?_, ⟨up, hup, hws⟩, ⟨conn, hconn, htoken⟩, hproto, hlen, hkey⟩, rfl⟩
    by_contra hno
    exact hversion (Text.find_eq_none_iff.mpr hno)
  · rintro ⟨nonce, h, rfl⟩
    obtain ⟨up, hup, hws⟩ := h.upgrade
    obtain ⟨conn, hconn, htoken⟩ := h.connection
    refine ⟨⟨h.method, ?_⟩, up, hup, hws, conn, hconn, htoken, _, h.protocol, ⟨?_, rfl⟩, _, h.key,
      ⟨nonce, h.length, rfl⟩, ?_, ?_⟩
    · intro hnone
      exact Text.find_eq_none_iff.mp hnone h.version
    · decide +kernel
    · rw [base64Sha1_sha1_60 h.length, length_switchingProtocols]
      decide
    · rw [base64Sha1_sha1_60 h.length]

/-- The request of the handshake self-test. -/
example : prepareHandshake (ascii ("GET /chat HTTP/1.1\r\n" ++ "Host: server.example.com\r\n" ++
      "Upgrade: websocket\r\n" ++ "Connection: Upgrade\r\n" ++
      "Sec-WebSocket-Key: dGhlIHNhbXBsZSBub25jZQ==\r\n" ++ "Sec-WebSocket-Version: 13\r\n\r\n")) =
    some (switchingProtocols (ascii "s3pPLMBiTxaQ9kYGzzhZRbK+xOo=")) := by
  decide +kernel

/-! ### The end of the request -/

/-- The length of the request that a text begins with, up to its first empty line. -/
def requestLength (s : List UInt8) : Option ℕ :=
  (Text.find (crlf ++ crlf) s).map fun r => r.1.length + 4

lemma requestLength_le {s : List UInt8} {n : ℕ} (h : requestLength s = some n) :
    4 ≤ n ∧ n ≤ s.length := by
  obtain ⟨⟨a, b⟩, hfind, rfl⟩ := Option.map_eq_some_iff.mp h
  have hfirst := Text.find_some hfind
  have hlen := congrArg List.length hfirst.split
  have hocc : 4 ≤ b.length := hfirst.occurs.length_le
  rw [List.length_append] at hlen
  exact ⟨by omega, by change a.length + 4 ≤ _; omega⟩

/-- What comes behind the request does not change it. -/
lemma requestLength_append {s : List UInt8} {n : ℕ} (h : requestLength s = some n)
    (t : List UInt8) : requestLength (s ++ t) = some n := by
  obtain ⟨⟨a, b⟩, hfind, rfl⟩ := Option.map_eq_some_iff.mp h
  rw [requestLength, Text.find_eq_some_iff.mpr ((Text.find_some hfind).append t)]
  rfl

section Search

variable {buf : List UInt8} {len i : ℕ}

/-- The comparison at position `i`. -/
lemma matches_iff (hi : i + 4 ≤ len) :
    (buf.drop i).take 4 = crlf ++ crlf ↔ crlf ++ crlf <+: (buf.take len).drop i := by
  rw [List.prefix_iff_eq_take, List.drop_take, List.take_take, eq_comm,
    show min (crlf ++ crlf).length (len - i) = 4 by
      rw [show (crlf ++ crlf).length = 4 from rfl]
      omega]

/-- The search looks at all positions but those before which the bytes are old, and these are no
matches if there was none among the old bytes. -/
theorem findHandshakeEnd_eq {start : ℕ} (hlen : len ≤ buf.length) (hstart : start ≤ len)
    (hold : requestLength (buf.take start) = none) :
    findHandshakeEnd buf len start = (requestLength (buf.take len)).getD 0 := by
  have htake : (buf.take len).length = len := by rw [List.length_take]; omega
  have hnone : ∀ i, i + 4 ≤ start → ¬ crlf ++ crlf <+: (buf.take len).drop i := by
    intro i hi hpre
    have hfind : Text.find (crlf ++ crlf) (buf.take start) = none := by
      simpa [requestLength] using hold
    refine Text.find_none hfind ((buf.take start).take i) ((buf.take start).drop i)
      (List.take_append_drop _ _).symm ?_
    rw [← matches_iff hi]
    exact (matches_iff (by omega)).mpr hpre
  unfold findHandshakeEnd
  by_cases h4 : len < 4
  · have hfind : requestLength (buf.take len) = none := by
      rw [requestLength, Option.map_eq_none_iff, Text.find_eq_none_iff]
      intro hocc
      have hle := hocc.length_le
      rw [htake] at hle
      exact absurd hle (by rw [show (crlf ++ crlf).length = 4 from rfl]; omega)
    rw [if_pos h4, hfind]
    rfl
  rw [if_neg h4, if_neg (by omega : ¬ start > len)]
  simp only
  generalize hfrom : (if start > 3 then start - 3 else 0) = lo
  have hlo : lo + 3 = start ∨ (start ≤ 3 ∧ lo = 0) := by
    split at hfrom <;> omega
  split
  · rename_i i hfound
    obtain ⟨hmatch, hmem, hbefore⟩ := List.find?_range'_eq_some.mp hfound
    rw [List.mem_range'_1] at hmem
    have hi : i + 4 ≤ len := by omega
    have hfirst : Text.First (crlf ++ crlf) (buf.take len) ((buf.take len).take i)
        ((buf.take len).drop i) := by
      refine ⟨(List.take_append_drop _ _).symm,
        (matches_iff hi).mp (by simpa using hmatch), fun a' b' hs hb' => ?_⟩
      rw [List.length_take, htake]
      by_contra hlt
      have hdrop : (buf.take len).drop a'.length = b' := by rw [hs, List.drop_left]
      by_cases hold' : a'.length + 4 ≤ start
      · exact hnone _ hold' (hdrop ▸ hb')
      · have hno := hbefore a'.length (by omega) (by omega)
        have hyes : (buf.drop a'.length).take 4 = crlf ++ crlf :=
          (matches_iff (by omega)).mpr (hdrop ▸ hb')
        simp [hyes] at hno
    rw [requestLength, Text.find_eq_some_iff.mpr hfirst]
    simp only [Option.map_some, Option.getD_some, List.length_take]
    omega
  · rename_i hnot
    have hfind : requestLength (buf.take len) = none := by
      rw [requestLength, Option.map_eq_none_iff]
      cases hcase : Text.find (crlf ++ crlf) (buf.take len) with
      | none => rfl
      | some r =>
          have hfirst := Text.find_some hcase
          have hlens := congrArg List.length hfirst.split
          have hocc : 4 ≤ r.2.length := hfirst.occurs.length_le
          rw [htake, List.length_append] at hlens
          have hdrop : (buf.take len).drop r.1.length = r.2 := by
            conv_lhs => rw [hfirst.split]
            exact List.drop_left
          by_cases hold' : r.1.length + 4 ≤ start
          · exact absurd (hdrop ▸ hfirst.occurs) (hnone _ hold')
          · have hno := List.find?_range'_eq_none.mp hnot r.1.length (by omega) (by omega)
            have hyes : (buf.drop r.1.length).take 4 = crlf ++ crlf :=
              (matches_iff (by omega)).mpr (hdrop ▸ hfirst.occurs)
            simp [hyes] at hno
    rw [hfind]
    rfl

end Search

end Zslay.Echo
