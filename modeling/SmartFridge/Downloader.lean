import SmartFridge.Reader

/-!
# The downloaded document

`sf_download_file` collects in a growing buffer what libcurl hands to its write
callback, and `sf_decoder` takes the first brace of that buffer for the
beginning of the document.  The list of request headers is set as the value of
CURLOPT_HEADER, which is a switch: the header lines of the response are
collected as well.
-/

namespace SmartFridge.Downloader

open SmartFridge.Library

/-- The structure `data_fetch`. -/
structure DataFetch where
  payload : Option (List UInt8)
  size : Nat
deriving DecidableEq

/-- CURL_EXPAND_ERROR. -/
inductive LogEntry where
  | curlExpandError
deriving DecidableEq

/-- The arguments of a call of the write callback, and whether `realloc` grows
the buffer for it. -/
structure Write where
  contents : List UInt8
  size : Nat
  nmemb : Nat
  whole : contents.length = size * nmemb
  allocated : Bool

/-- What a call of the write callback does. -/
structure Taken where
  result : Nat
  fetched : DataFetch
  log : List LogEntry

/-- `sf_curl_callback`. -/
def sfCurlCallback (write : Write) (fetched : DataFetch) : Taken :=
  let realsize := write.size * write.nmemb
  if write.allocated then
    -- The new block ends with the terminator.
    { result := realsize
      fetched :=
        { payload := some
            ((fetched.payload.getD []).take fetched.size ++ write.contents ++ [0])
          size := fetched.size + realsize }
      log := [] }
  else
    { result := 0
      fetched := { fetched with payload := none }
      log := [.curlExpandError] }

/-- The options that `sf_download_file` sets: the address, and whether header
lines go through the write callback. -/
structure Options where
  url : CString
  header : Bool

/-- The calls of the write callback, and how the transfer ends if all of them
take what they are given. -/
structure Transfer where
  writes : List Write
  code : Nat

/-- The functions of libcurl that decide what `sf_download_file` does. -/
structure Libcurl where
  easyInit : Bool
  slistAppend : Option (List CString) → CString → Option (List CString)
  perform : Options → Transfer

/-- CURLE_WRITE_ERROR. -/
abbrev curleWriteError : Nat := 23

/-- `curl_easy_perform`, which gives up once the callback takes too little. -/
def easyPerform (code : Nat) :
    List Write → DataFetch → Nat × DataFetch × List LogEntry
  | [], fetched => (code, fetched, [])
  | write :: rest, fetched =>
      let taken := sfCurlCallback write fetched
      if taken.result = write.contents.length then
        let (result, last, log) := easyPerform code rest taken.fetched
        (result, last, taken.log ++ log)
      else
        (curleWriteError, taken.fetched, taken.log)

/-- The result of `sf_download_file`, with `*size` and `*buffer`. -/
structure Download where
  retval : Int
  size : Nat
  buffer : Option (List UInt8)
  log : List LogEntry
deriving DecidableEq

/-- The list of request headers. -/
def requestHeaders (libcurl : Libcurl) : Option (List CString) :=
  let headers := libcurl.slistAppend none (.lit "Accept: application/json")
  let headers :=
    libcurl.slistAppend headers (.lit "Content-Type: application/json")
  libcurl.slistAppend headers (.lit "charsets: utf-8")

/--
`sf_download_file`.  In a failure it clears `*size`, while `buffer = NULL` sets
the parameter only.
-/
def sfDownloadFile (libcurl : Libcurl) (url : CString)
    (buffer : Option (List UInt8)) : Download :=
  if libcurl.easyInit then
    let transfer := libcurl.perform
      { url, header := (requestHeaders libcurl).isSome }
    let (result, data, log) :=
      easyPerform transfer.code transfer.writes { payload := none, size := 0 }
    if result = 0 then
      { retval := 0, size := data.size, buffer := data.payload, log }
    else
      { retval := 1, size := 0, buffer, log }
  else
    { retval := 1, size := 0, buffer, log := [] }

/-- `str_json = strchr(buffer, '{')` in `sf_decoder`, as a place in the buffer. -/
def strJson (buffer : List UInt8) : Option Nat :=
  (CString.ofBuffer buffer).offset Json.openBrace

/-- The string at that place is the document that the decoder is given. -/
theorem strchr_eq_drop_strJson (buffer : List UInt8) :
    (CString.ofBuffer buffer).strchr Json.openBrace =
      (strJson buffer).map (CString.ofBuffer buffer).drop :=
  CString.strchr_eq_drop _ _

/-! ## The growing buffer -/

/-- What the buffer holds, with its terminator once there is a buffer. -/
structure Collected (fetched : DataFetch) (bytes : List UInt8) : Prop where
  payload : fetched.payload.getD [0] = bytes ++ [0]
  size : fetched.size = bytes.length

theorem collected_nothing : Collected { payload := none, size := 0 } [] :=
  ⟨rfl, rfl⟩

/-- A call that can grow the buffer takes all that it is given. -/
theorem sfCurlCallback_of_allocated {write : Write}
    (allocated : write.allocated = true) (fetched : DataFetch)
    {bytes : List UInt8} (collected : Collected fetched bytes) :
    (sfCurlCallback write fetched).result = write.contents.length ∧
      (sfCurlCallback write fetched).log = [] ∧
      Collected (sfCurlCallback write fetched).fetched
        (bytes ++ write.contents) := by
  rcases collected with ⟨payload, size⟩
  have kept : (fetched.payload.getD []).take fetched.size = bytes := by
    cases held : fetched.payload with
    | none =>
        rw [held] at payload
        have nothing : bytes = [] := by simpa using payload.symm
        rw [nothing, Option.getD_none, List.take_nil]
    | some block =>
        rw [held, Option.getD_some] at payload
        rw [Option.getD_some, payload, size, List.take_left]
  unfold sfCurlCallback
  rw [if_pos allocated, kept]
  refine ⟨write.whole.symm, rfl, rfl, ?_⟩
  rw [size, List.length_append, write.whole]

/-- All the calls together collect all that they are given. -/
theorem easyPerform_of_allocated (code : Nat) {writes : List Write}
    (allocated : ∀ write ∈ writes, write.allocated = true)
    {fetched : DataFetch} {bytes : List UInt8}
    (collected : Collected fetched bytes) :
    ∃ last, easyPerform code writes fetched = (code, last, []) ∧
      Collected last (bytes ++ writes.flatMap Write.contents) := by
  induction writes generalizing fetched bytes with
  | nil => exact ⟨fetched, rfl, by simpa using collected⟩
  | cons write rest ih =>
      rw [List.forall_mem_cons] at allocated
      rcases sfCurlCallback_of_allocated allocated.1 fetched collected with
        ⟨result, log, grown⟩
      rcases ih allocated.2 grown with ⟨last, performed, all⟩
      refine ⟨last, ?_, ?_⟩
      · rw [easyPerform]
        simp only [result, if_true, performed, log, List.append_nil]
      · rwa [List.flatMap_cons, ← List.append_assoc]

theorem Collected.payload_eq {fetched : DataFetch} {bytes : List UInt8}
    (collected : Collected fetched bytes) (nonempty : bytes ≠ []) :
    fetched.payload = some (bytes ++ [0]) := by
  have payload := collected.payload
  cases held : fetched.payload with
  | none =>
      rw [held] at payload
      exact absurd (by simpa using payload.symm) nonempty
  | some block =>
      rw [held, Option.getD_some] at payload
      rw [payload]

/-! ## The beginning of the document -/

/-- A response of a server: its header lines and a body without zero bytes. -/
structure Response where
  header : List UInt8
  body : List UInt8
  nulFree : 0 ∉ body

/-- What the write callback is given of a response. -/
def Response.output (response : Response) (header : Bool) : List UInt8 :=
  if header then response.header ++ response.body else response.body

/-- libcurl fetches a response and no allocation fails, whatever the division
of the response into calls of the callback. -/
structure Fetches (libcurl : Libcurl) (url : CString) (response : Response) :
    Prop where
  easyInit : libcurl.easyInit = true
  appended : ∀ list text, (libcurl.slistAppend list text).isSome = true
  succeeds : ∀ header, (libcurl.perform { url, header }).code = 0
  allocated : ∀ header, ∀ write ∈ (libcurl.perform { url, header }).writes,
    write.allocated = true
  output : ∀ header,
    (libcurl.perform { url, header }).writes.flatMap Write.contents =
      response.output header

/-- The buffer is the whole response with a terminator, and the document that
is decoded begins where the body does. -/
structure DecodesBody (response : Response) (download : Download) : Prop where
  retval : download.retval = 0
  size : download.size = (response.header ++ response.body).length
  buffer : download.buffer = some (response.header ++ response.body ++ [0])
  strJson : download.buffer.bind strJson = some response.header.length

/-- The body begins with a brace, and the header has neither a brace nor a zero
byte. -/
structure PlainHeader (response : Response) : Prop where
  unbraced : Json.openBrace ∉ response.header
  nulFree : 0 ∉ response.header
  object : response.body.head? = some Json.openBrace

/-- The first brace of the buffer is that of the body. -/
theorem strJson_eq_iff (response : Response) :
    strJson (response.header ++ response.body ++ [0]) =
        some response.header.length ↔
      PlainHeader response := by
  by_cases nulFree : 0 ∈ response.header
  · -- The string ends within the header.
    refine iff_of_false ?_ fun plain => plain.nulFree nulFree
    intro found
    have bound := (List.idxOf?_eq_some_iff.mp found).1
    rcases List.eq_append_cons_of_mem nulFree with
      ⟨first, rest, header, unterminated⟩
    have split : response.header ++ response.body ++ [0] =
        first ++ 0 :: (rest ++ response.body ++ [0]) := by
      simp [header]
    rw [split, CString.ofBuffer_terminated unterminated, header,
      List.length_append] at bound
    omega
  · have bytes : (CString.ofBuffer
        (response.header ++ response.body ++ [0])).bytes =
          response.header ++ response.body := by
      apply CString.ofBuffer_terminated
      rw [List.mem_append]
      exact not_or.mpr ⟨nulFree, response.nulFree⟩
    rw [strJson, CString.offset_eq_length_iff bytes]
    exact ⟨fun found => ⟨found.1, nulFree, found.2⟩,
      fun plain => ⟨plain.unbraced, plain.object⟩⟩

/-- What `sf_download_file` yields of a response. -/
theorem sfDownloadFile_of_fetches {libcurl : Libcurl} {url : CString}
    {response : Response} (fetches : Fetches libcurl url response)
    (buffer : Option (List UInt8)) :
    ∃ last, sfDownloadFile libcurl url buffer =
        { retval := 0, size := last.size, buffer := last.payload, log := [] } ∧
      Collected last (response.header ++ response.body) := by
  have header : (requestHeaders libcurl).isSome = true := fetches.appended _ _
  rcases easyPerform_of_allocated
      (libcurl.perform { url, header := true }).code (fetches.allocated true)
      collected_nothing with ⟨last, performed, collected⟩
  refine ⟨last, ?_, ?_⟩
  · rw [sfDownloadFile, if_pos fetches.easyInit, header]
    simp only [performed]
    rw [fetches.succeeds, if_pos rfl]
  · rwa [fetches.output, List.nil_append] at collected

/--
For every response and every way of fetching it, the buffer is the exact
response, and the document that is decoded is the body exactly if the body
begins with a brace and the header has neither a brace nor a zero byte.
-/
theorem decodesBody_iff {libcurl : Libcurl} {url : CString}
    {response : Response} (fetches : Fetches libcurl url response) :
    DecodesBody response (sfDownloadFile libcurl url none) ↔
      PlainHeader response := by
  rcases sfDownloadFile_of_fetches fetches none with
    ⟨last, downloaded, collected⟩
  rw [downloaded, ← strJson_eq_iff]
  constructor
  · intro decodes
    have found := decodes.strJson
    rwa [decodes.buffer] at found
  · intro found
    have object := ((strJson_eq_iff response).mp found).object
    have nonempty : response.header ++ response.body ≠ [] := by
      intro empty
      rw [(List.append_eq_nil_iff.mp empty).2] at object
      cases object
    have buffer := collected.payload_eq nonempty
    exact ⟨rfl, collected.size, buffer, by rwa [buffer]⟩

/-- A write of some bytes that finds memory. -/
def Write.ofBytes (contents : List UInt8) : Write where
  contents
  size := 1
  nmemb := contents.length
  whole := (Nat.one_mul _).symm
  allocated := true

/-- A libcurl that hands over the header and the body in one piece each. -/
def replay (response : Response) : Libcurl where
  easyInit := true
  slistAppend := fun list text => some (list.getD [] ++ [text])
  perform := fun options =>
    { writes :=
        if options.header then
          [.ofBytes response.header, .ofBytes response.body]
        else
          [.ofBytes response.body]
      code := 0 }

theorem fetches_replay (url : CString) (response : Response) :
    Fetches (replay response) url response where
  easyInit := rfl
  appended := fun _ _ => rfl
  succeeds := fun _ => rfl
  allocated := by
    intro header write member
    cases header with
    | true =>
        rcases List.mem_pair.mp member with rfl | rfl
        · rfl
        · rfl
    | false =>
        rw [List.mem_singleton.mp member]
        rfl
  output := by
    intro header
    cases header with
    | true => simp [replay, Response.output, Write.ofBytes]
    | false => simp [replay, Response.output, Write.ofBytes]

/-- A product that was not found, from a server without further headers. -/
def plainResponse : Response where
  header := (CString.lit "HTTP/1.1 200 OK\r\n\r\n").bytes
  body := (CString.lit "\x7b\"status\":0\x7d").bytes
  nulFree := CString.nulFree _

theorem decodesBody_iff_plain :
    DecodesBody plainResponse
        (sfDownloadFile (replay plainResponse) (.lit "url") none) ↔
      PlainHeader plainResponse :=
  decodesBody_iff (fetches_replay _ plainResponse)

/-- The same response from a server that asks for error reports. -/
def reportedResponse : Response where
  header :=
    (CString.lit "HTTP/1.1 200 OK\r\nNEL: \x7b\"max_age\":1\x7d\r\n\r\n").bytes
  body := (CString.lit "\x7b\"status\":0\x7d").bytes
  nulFree := CString.nulFree _

/-- A header with a brace is taken for the document. -/
theorem header_decoded :
    ¬ ∀ (libcurl : Libcurl) (url : CString) (response : Response),
        response.body.head? = some Json.openBrace →
          Fetches libcurl url response →
            DecodesBody response (sfDownloadFile libcurl url none) := by
  intro always
  have decodes := always _ .empty reportedResponse (by decide)
    (fetches_replay _ reportedResponse)
  have found := decodes.strJson
  rw [decodes.buffer] at found
  revert found
  decide

end SmartFridge.Downloader
