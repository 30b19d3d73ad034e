import ReachEdukit.Md5.Digest
import ReachEdukit.Rtsp.AuthorizationHeader
import ReachEdukit.Rtsp.Gate

/-!
# Logging in to the RTSP server

The gate has the digest and the fields of the header given. Here they are the functions of the source:
`our_MD5Data` and `parseAuthorizationHeader`. A client is told the realm and a nonce, and answers with
a line of fields. The user it names is not compared with anything, nor is the address: the digest is
made of the name, the realm and the password of the server, and of the address that is described.

## What is left out

A text of which the digest is taken is shorter than `2 ^ 32 - 64` bytes. A line whose fields are not well
formed is another file's matter.

## Main definitions

* `server` — the environment of the gate
* `Describes` — a request that comes to the check, with the nonce and the address
* `Answers` — the fields of a client that knows the password

## Main results

* `accepted_iff_answers` — a `DESCRIBE` is accepted exactly for these fields
-/

namespace ReachEdukit

namespace Rtsp

namespace Login

open AuthorizationHeader (Key Header)

/-- `our_MD5Data`. -/
def ourMd5 (text : Text) : Digest where
  hex := Md5.hex Md5.hexDigits (Md5.digest text)
  length_eq := by rw [Md5.length_hex, Md5.length_digest]
  noNul := by
    intro hzero
    obtain ⟨b, -, hb⟩ := List.mem_flatMap.mp hzero
    revert b
    decide

/-- The bytes of a text as characters. -/
def chars (text : Text) : List Char := text.map fun b => Char.ofNat b.toNat

/-- Characters as bytes. -/
def bytes (text : List Char) : Text := text.map fun c => BitVec.ofNat 8 c.toNat

/-- What `parseAuthorizationHeader` finds. -/
def authorization (text : Text) : Authorization :=
  let fields := (AuthorizationHeader.parseAuthorizationHeader (chars text)).elim (fun _ => none)
    AuthorizationHeader.State.fields
  { username := (fields .username).map bytes
    realm := (fields .realm).map bytes
    nonce := (fields .nonce).map bytes
    uri := (fields .uri).map bytes
    response := (fields .response).map bytes }

/-- The server with its own digest and its own parser. -/
def server (conv : Conversion) (parseUrl : Text → ℤ × Option Text) (user : UserAuthentication) : Env where
  conv := conv
  md5 := ourMd5
  parseUrl := parseUrl
  authorization := authorization
  user := user

/-- A connection that has handled `es` comes to the check with the request `e`: with this nonce, for this
address. -/
def Describes (env : Env) (es : List Arrival) (e : Arrival) (nonce url : Text) : Prop :=
  ∃ conn strMsg conn', connAfter env es = some conn ∧
    getVlcMsgType env.conv e.request.text conn.strMsg = some (strMsg, .type .describe) ∧
    rtspDescribeAuthentication env e.request.text { conn with strMsg := strMsg } = some (conn', true) ∧
    conn'.aut = ⟨nonce, url⟩

/-- The value of a field. -/
def HasField (fs : List AuthorizationHeader.Field) (key : Key) (value : Text) : Prop :=
  ∃ field ∈ fs, field.name = key.text ∧ bytes field.value = value

/-- The digest of a text, in hexadecimal. -/
def hexDigest (text : Text) : Text := Md5.hex Md5.hexDigits (Md5.digest text)

/-- The response of a client that knows the password. -/
def rightAnswer (user : UserAuthentication) (nonce url : Text) : Text :=
  hexDigest (hexDigest (user.userName ++ ascii ":" ++ user.realm ++ ascii ":" ++ user.userPass) ++
    ascii ":" ++ nonce ++ ascii ":" ++ hexDigest (ascii "DESCRIBE:" ++ url))

/-- The fields with this response, from a client that was told the nonce. -/
structure Answers (user : UserAuthentication) (told url answer : Text)
    (fs : List AuthorizationHeader.Field) : Prop where
  username : ∃ value, HasField fs .username value
  realm : HasField fs .realm user.realm
  nonce : HasField fs .nonce told
  uri : ∃ value, HasField fs .uri value
  response : HasField fs .response answer
  right : answer = rightAnswer user told url

variable {env : Env} {conv : Conversion} {parseUrl : Text → ℤ × Option Text} {user : UserAuthentication}
  {es : List Arrival} {e : Arrival} {nonce url response text : Text} {fs : List AuthorizationHeader.Field}

/-- The digest of a text is what `our_MD5Data` writes. -/
theorem ourMD5Data_text (h : text.length ≤ 2 ^ 32 - 64) : Md5.ourMD5Data text = some (ourMd5 text).hex := by
  rw [Md5.ourMD5Data, Md5.ourMD5End, Md5.digestOf_text h, ← Md5.digest_eq]
  rfl

/-- Characters of one byte come back. -/
theorem chars_bytes {t : List Char} (h : ∀ c ∈ t, c.toNat < 256) : chars (bytes t) = t := by
  rw [chars, bytes, List.map_map]
  refine (List.map_congr_left fun c hc => ?_).trans (List.map_id t)
  change Char.ofNat (BitVec.ofNat 8 c.toNat).toNat = c
  rw [BitVec.toNat_ofNat, Nat.mod_eq_of_lt (h c hc), Char.ofNat_toNat]

/-! ### The header -/

/-- What is found for a name is the value of its field. -/
theorem find_iff (hne : fs ≠ []) (h : Header (chars text) fs) (key : Key) {value : Text} :
    (((AuthorizationHeader.parseAuthorizationHeader (chars text)).elim (fun _ => none)
      AuthorizationHeader.State.fields) key).map bytes = some value ↔ HasField fs key value := by
  obtain ⟨tail, htail, hfind⟩ := h.findFields
  have hright := AuthorizationHeader.right_foldl h.once key
  rw [AuthorizationHeader.parseAuthorizationHeader, hfind, Option.map_some, Option.elim_some,
    AuthorizationHeader.parseFields_fields hne h.ok htail]
  constructor
  · intro hvalue
    obtain ⟨found, hfound, rfl⟩ := Option.map_eq_some_iff.mp hvalue
    by_contra hno
    have hnames : ∀ field ∈ fs, field.name ≠ key.text := by
      intro field hfield hname
      have hsame := (hright.1 field hfield hname).symm.trans hfound
      exact hno ⟨field, hfield, hname, congrArg bytes (Option.some.inj hsame)⟩
    exact Option.some_ne_none found (hfound.symm.trans (hright.2 hnames))
  · rintro ⟨field, hfield, hname, rfl⟩
    exact congrArg (Option.map bytes) (hright.1 field hfield hname)

/-- A field that is found at all. -/
theorem isSome_find_iff (hne : fs ≠ []) (h : Header (chars text) fs) (key : Key) :
    ((((AuthorizationHeader.parseAuthorizationHeader (chars text)).elim (fun _ => none)
      AuthorizationHeader.State.fields) key).map bytes).isSome ↔ ∃ value, HasField fs key value := by
  rw [Option.isSome_iff_exists]
  exact exists_congr fun value => find_iff hne h key

/-! ### The check -/

variable (conv parseUrl user response) in
/-- **What the check accepts.** -/
theorem authenticationOK_iff (hne : fs ≠ []) (h : Header (chars text) fs) (aut : AutInfo) (seed : Text) :
    authenticationOK (server conv parseUrl user) (ascii "DESCRIBE") aut text seed = .inl response ↔
      aut.nonce ≠ [] ∧ aut.url ≠ [] ∧ Answers user aut.nonce aut.url response fs := by
  have hright : getCheckMd5 (server conv parseUrl user) (ascii "DESCRIBE") aut =
      rightAnswer user aut.nonce aut.url := rfl
  simp only [authenticationOK]
  constructor
  · intro hok
    split at hok
    · next found hfound =>
      split at hok
      · next hall =>
        obtain ⟨hurl, hnonce, huser, hrealm, htold, huri, hsame⟩ := hall
        obtain rfl := Sum.inl.inj hok
        refine ⟨hnonce, hurl, ⟨(isSome_find_iff hne h .username).mp huser, (find_iff hne h .realm).mp hrealm,
          (find_iff hne h .nonce).mp htold, (isSome_find_iff hne h .uri).mp huri,
          (find_iff hne h .response).mp hfound, hsame.symm.trans hright⟩⟩
      · cases hok
    · cases hok
  · rintro ⟨hnonce, hurl, hanswers⟩
    have hfound : ((server conv parseUrl user).authorization text).response = some response :=
      (find_iff hne h .response).mpr hanswers.response
    rw [hfound]
    refine if_pos ⟨hurl, hnonce, (isSome_find_iff hne h .username).mpr hanswers.username,
      (find_iff hne h .realm).mpr hanswers.realm, (find_iff hne h .nonce).mpr hanswers.nonce,
      (isSome_find_iff hne h .uri).mpr hanswers.uri, hright.trans hanswers.right.symm⟩

/-- What a request does that comes to the check. -/
theorem acts_describes (h : Describes env es e nonce url) : ∃ conn', conn'.aut = ⟨nonce, url⟩ ∧
    acts env (es ++ [e]) = acts env es ++ (afterVerdict conn' e.tsAnswered
      (authenticationOK env (ascii "DESCRIBE") ⟨nonce, url⟩ e.request.text e.seed)).2 := by
  obtain ⟨conn, strMsg, conn', hconn, htype, haddress, haut⟩ := h
  refine ⟨conn', haut, ?_⟩
  have hdone : vlcContact env (some conn) e = afterVerdict conn' e.tsAnswered
      (authenticationOK env (ascii "DESCRIBE") conn'.aut e.request.text e.seed) := by
    rw [vlcContact, handle, htype]
    change describe env { conn with strMsg := strMsg } e = _
    rw [describe, haddress]
  rw [acts_snoc, hconn, hdone, haut]

/-- The nonce is the one that was sent last. -/
theorem lastNonce_describes (h : Describes env es e nonce url) (hne : nonce ≠ []) :
    lastNonce (acts env es) = some nonce := by
  obtain ⟨conn, strMsg, conn', hconn, -, haddress, haut⟩ := h
  have hnonce := rtspDescribeAuthentication_nonce haddress
  rw [haut] at hnonce
  change nonce = conn.aut.nonce at hnonce
  rw [hnonce] at hne ⊢
  exact nonce_connAfter es hconn hne

/-- **A `DESCRIBE` is accepted exactly for the fields of a client that knows the password** and was told
the last nonce, and with their response. -/
theorem accepted_iff_answers (hne : fs ≠ []) (hheader : Header (chars e.request.text) fs)
    (hdescribes : Describes (server conv parseUrl user) es e nonce url) :
    let env := server conv parseUrl user
    acts env (es ++ [e]) = acts env es ++ [.accepted response url] ↔
      lastNonce (acts env es) = some nonce ∧ nonce ≠ [] ∧ url ≠ [] ∧ Answers user nonce url response fs := by
  intro env
  obtain ⟨conn', haut, hacts⟩ := acts_describes hdescribes
  have hiff := authenticationOK_iff conv parseUrl user response hne hheader ⟨nonce, url⟩ e.seed
  have hverdict : acts env (es ++ [e]) = acts env es ++ [.accepted response url] ↔
      authenticationOK env (ascii "DESCRIBE") ⟨nonce, url⟩ e.request.text e.seed = .inl response := by
    rw [hacts, List.append_cancel_left_eq]
    cases authenticationOK env (ascii "DESCRIBE") ⟨nonce, url⟩ e.request.text e.seed with
    | inr refused => simp [afterVerdict]
    | inl accepted => simp [afterVerdict, haut]
  rw [hverdict, hiff]
  constructor
  · rintro ⟨hnonce, hurl, hanswers⟩
    exact ⟨lastNonce_describes hdescribes hnonce, hnonce, hurl, hanswers⟩
  · rintro ⟨-, hrest⟩
    exact hrest

/-! ### A client that is told a nonce and answers -/

/-- A field of a known name. -/
theorem ok_of_key (key : Key) {value separators : List Char} (hvalue : value.contains '"' = false)
    (hseparators : separators.all AuthorizationHeader.isSeparator = true) :
    AuthorizationHeader.Field.Ok ⟨key.text, value, separators⟩ where
  name_ne := by cases key <;> exact List.cons_ne_nil _ _
  name := by
    change '=' ∉ key.text
    cases key <;> decide
  head := by
    cases key <;>
    · rintro c ⟨⟩
      decide
  value := by simpa using hvalue
  separators := List.all_eq_true.mp hseparators

/-- A user. -/
def sampleUser : UserAuthentication := ⟨ascii "admin", ascii "secret", ascii "reach"⟩

/-- A server at an address. -/
def sampleServer : Env := server .x86 (rtspPortingParseUrl (ascii "10.0.0.1")) sampleUser

/-- The address of a stream, as the server names it. -/
def sampleUrl : Text := ascii "rtsp://10.0.0.1:554/stream0/high"

/-- The digest of nothing. -/
def sampleNonce : Text := ascii "d41d8cd98f00b204e9800998ecf8427e"

/-- The answer to it. -/
def sampleAnswer : Text := ascii "efabb0253ab3a6e8b10f4ceda212e623"

/-- The fields of the answer. -/
def sampleFields : List AuthorizationHeader.Field :=
  [⟨Key.username.text, "admin".toList, [',']⟩, ⟨Key.realm.text, "reach".toList, [',']⟩,
    ⟨Key.nonce.text, "d41d8cd98f00b204e9800998ecf8427e".toList, [',']⟩,
    ⟨Key.uri.text, "rtsp://10.0.0.1:554/stream0/high".toList, [',']⟩,
    ⟨Key.response.text, "efabb0253ab3a6e8b10f4ceda212e623".toList, []⟩]

/-- The lines in front of them. -/
def sampleStart : List Char := "DESCRIBE rtsp://10.0.0.1/stream0/high RTSP/1.0\r\nCSeq: 2\r\n".toList

/-- The request with the answer. -/
def sampleText : List Char :=
  sampleStart ++ (AuthorizationHeader.authorizationDigest ++
    ([] ++ (AuthorizationHeader.fieldsText sampleFields ++ ['\r', '\n'])))

/-- A request without an answer. -/
def firstText : Text := ascii "DESCRIBE rtsp://10.0.0.1/stream0/high RTSP/1.0\r\nCSeq: 1\r\n\r\n"

theorem firstText_fits : (0 : Byte) ∉ firstText ∧ firstText.length < 2 * tcpBuffLen := by
  decide +kernel

theorem sampleText_fits :
    (0 : Byte) ∉ bytes sampleText ∧ (bytes sampleText).length < 2 * tcpBuffLen := by
  decide +kernel

/-- The request that is refused. -/
def firstDescribe : Arrival := ⟨⟨firstText, firstText_fits.1, firstText_fits.2⟩, [], true, noTimeout⟩

/-- The request with the answer. -/
def secondDescribe : Arrival :=
  ⟨⟨bytes sampleText, sampleText_fits.1, sampleText_fits.2⟩, [], true, noTimeout⟩

theorem sample_header : Header (chars secondDescribe.request.text) sampleFields := by
  have hascii : ∀ c ∈ sampleText, c.toNat < 256 := by
    have hall : (sampleText.all fun c => c.toNat < 256) = true := by
      decide +kernel
    simpa using hall
  have hok : ∀ field ∈ sampleFields, field.Ok := by
    simp only [sampleFields, List.forall_mem_cons]
    exact ⟨ok_of_key _ (by decide +kernel) rfl, ok_of_key _ (by decide +kernel) rfl,
      ok_of_key _ (by decide +kernel) rfl, ok_of_key _ (by decide +kernel) rfl,
      ok_of_key _ (by decide +kernel) rfl, fun _ h => absurd h List.not_mem_nil⟩
  have hnames : (sampleFields.map fun field => field.name).Pairwise (· ≠ ·) := by
    change [Key.username.text, Key.realm.text, Key.nonce.text, Key.uri.text, Key.response.text].Pairwise (· ≠ ·)
    decide
  change Header (chars (bytes sampleText)) sampleFields
  rw [chars_bytes hascii]
  exact ⟨⟨sampleStart, AuthorizationHeader.authorizationDigest, [], ['\r', '\n'], rfl, by decide +kernel,
    by decide +kernel, by decide +kernel, fun c hc => absurd hc List.not_mem_nil, by decide⟩, hok,
    (List.pairwise_map.mp hnames).imp fun hne key ha hb => hne (ha.trans hb.symm)⟩

theorem sample_describes :
    Describes sampleServer [firstDescribe] secondDescribe sampleNonce sampleUrl := by
  have hrun : ((connAfter sampleServer [firstDescribe]).bind fun conn =>
      (getVlcMsgType sampleServer.conv secondDescribe.request.text conn.strMsg).bind fun r =>
        (rtspDescribeAuthentication sampleServer secondDescribe.request.text
          { conn with strMsg := r.1 }).bind fun q => some (r.2, q.2, q.1.aut.nonce, q.1.aut.url)) =
      some (.type .describe, true, sampleNonce, sampleUrl) := by
    decide +kernel
  obtain ⟨conn, hconn, hrun⟩ := Option.bind_eq_some_iff.mp hrun
  obtain ⟨⟨strMsg, answer⟩, htype, hrun⟩ := Option.bind_eq_some_iff.mp hrun
  obtain ⟨⟨conn', b⟩, haddress, hrun⟩ := Option.bind_eq_some_iff.mp hrun
  simp only [Option.some.injEq, Prod.mk.injEq] at hrun
  obtain ⟨rfl, rfl, hnonce, hurl⟩ := hrun
  exact ⟨conn, strMsg, conn', hconn, htype, haddress, by rw [← hnonce, ← hurl]⟩

theorem sample_answers : Answers sampleUser sampleNonce sampleUrl sampleAnswer sampleFields where
  username := ⟨ascii "admin", _, .head _, rfl, rfl⟩
  realm := ⟨_, .tail _ (.head _), rfl, rfl⟩
  nonce := ⟨_, .tail _ (.tail _ (.head _)), rfl, rfl⟩
  uri := ⟨sampleUrl, _, .tail _ (.tail _ (.tail _ (.head _))), rfl, rfl⟩
  response := ⟨_, .tail _ (.tail _ (.tail _ (.tail _ (.head _)))), rfl, rfl⟩
  right := by decide +kernel

/-- The answer is accepted. -/
theorem accepted_second :
    acts sampleServer ([firstDescribe] ++ [secondDescribe]) =
      acts sampleServer [firstDescribe] ++ [.accepted sampleAnswer sampleUrl] := by
  have hnonce : sampleNonce ≠ [] := by
    decide
  have hurl : sampleUrl ≠ [] := by
    decide
  exact (accepted_iff_answers (List.cons_ne_nil _ _) sample_header sample_describes).mpr
    ⟨lastNonce_describes sample_describes hnonce, hnonce, hurl, sample_answers⟩

end Login

end Rtsp

end ReachEdukit
