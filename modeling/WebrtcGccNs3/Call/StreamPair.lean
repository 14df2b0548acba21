import Mathlib.Logic.Function.Basic
import WebrtcGccNs3.Lib.Machine

/-!
# CallClient and VideoStreamPair2

A stream pair takes SSRCs from its sender and its receiver, sets up a send stream, and for
each of its SSRCs a receive stream. A client knows the media type of a packet from its
SSRC, once the stream is set up. Every client has the same SSRCs to give. Before it takes
any, a send stream makes its frame generator and its encoder factory, under checks of
their own. What libwebrtc does with them, such as opening the files, is left out.
-/
namespace WebrtcGccNs3.Call

/-! ## CallClient -/

def kSendRtxSsrcs : List UInt32 := [0xBADCAFD, 0xBADCAFE, 0xBADCAFF, 0xBADCB00, 0xBADCB01, 0xBADCB02]

def kVideoSendSsrcs : List UInt32 := [0xC0FFED, 0xC0FFEE, 0xC0FFEF, 0xC0FFF0, 0xC0FFF1, 0xC0FFF2]

def kVideoRecvLocalSsrcs : List UInt32 := [0xDAB001, 0xDAB002, 0xDAB003, 0xDAB004, 0xDAB005, 0xDAB006]

inductive MediaType where
  | any
  | audio
  | video
  | data
  deriving DecidableEq

structure CallClient where
  nextVideoSsrcIndex : ℕ := 0
  nextVideoLocalSsrcIndex : ℕ := 0
  nextRtxSsrcIndex : ℕ := 0
  ssrcMediaTypes : UInt32 → Option MediaType := fun _ => none

namespace CallClient

variable (client : CallClient)

/-- An index that has come to the end fails a check, and so in the next two. -/
def getNextVideoSsrc : Option (UInt32 × CallClient) :=
  kVideoSendSsrcs[client.nextVideoSsrcIndex]?.map
    (·, { client with nextVideoSsrcIndex := client.nextVideoSsrcIndex + 1 })

def getNextVideoLocalSsrc : Option (UInt32 × CallClient) :=
  kVideoRecvLocalSsrcs[client.nextVideoLocalSsrcIndex]?.map
    (·, { client with nextVideoLocalSsrcIndex := client.nextVideoLocalSsrcIndex + 1 })

def getNextRtxSsrc : Option (UInt32 × CallClient) :=
  kSendRtxSsrcs[client.nextRtxSsrcIndex]?.map
    (·, { client with nextRtxSsrcIndex := client.nextRtxSsrcIndex + 1 })

/-- `ssrc_media_types_[ssrc] = VIDEO`. -/
def setVideo (ssrc : UInt32) : CallClient :=
  { client with ssrcMediaTypes := Function.update client.ssrcMediaTypes ssrc (some .video) }

/-- The media type with which a packet is delivered: `ssrc` is that of its header, `none` for a
header without one, which fails a check. The lookup adds an SSRC that is not there. -/
def onPacketReceived (isRtcp : Bool) (ssrc : Option UInt32) : Option (MediaType × CallClient) :=
  if isRtcp then some (.any, client)
  else ssrc.map fun ssrc =>
    match client.ssrcMediaTypes ssrc with
    | some mediaType => (mediaType, client)
    | none =>
      (.any, { client with ssrcMediaTypes := Function.update client.ssrcMediaTypes ssrc (some .any) })

end CallClient

/-! ## The configurations -/

inductive VideoCodecType where
  | generic
  | vp8
  | vp9
  | av1
  | h264
  | multiplex
  deriving DecidableEq

inductive Capture where
  | generator
  | videoFile
  | generateSlides
  | imageSlides
  deriving DecidableEq

inductive Implementation where
  | fake
  | software
  | hardware
  deriving DecidableEq

structure Size where
  width : Int
  height : Int
  deriving DecidableEq

structure Crop where
  scrollDurationUs : Int := 0
  width : Option Int := none
  height : Option Int := none

structure Slides where
  changeIntervalUs : Int := 10000000
  crop : Crop := {}
  images : Size := ⟨1850, 1110⟩

structure Source where
  capture : Capture := .generator
  slides : Slides := {}
  generator : Size := ⟨320, 180⟩
  videoFile : Size := ⟨0, 0⟩

/-- What the streams and the manager read of it. -/
structure VideoStreamConfig where
  autostart : Bool := true
  source : Source := {}
  implementation : Implementation := .fake
  codec : VideoCodecType := .generic
  spatial : ℕ := 1
  absSendTime : Bool := false
  packetFeedback : Bool := true
  useRtx : Bool := true
  nackHistoryTimeMs : Int := 1000
  useFlexfec : Bool := false
  useUlpfec : Bool := false
  syncGroup : String := ""

/-- `none` where a check fails. -/
def createImageSlideGenerator (slides : Slides) : Option Unit :=
  if slides.crop.width.isSome || slides.crop.height.isSome then do
    let pauseDurationUs := slides.changeIntervalUs - slides.crop.scrollDurationUs
    guard (pauseDurationUs ≥ 0)
    guard (slides.crop.width.getD slides.images.width ≤ slides.images.width)
    guard (slides.crop.height.getD slides.images.height ≤ slides.images.height)
  else some ()

/-- With the checks of the generator of squares for its resolution. -/
def createFrameGenerator (source : Source) : Option Unit :=
  match source.capture with
  | .generator => do
    guard (source.generator.width > 0)
    guard (source.generator.height > 0)
  | .videoFile => guard (source.videoFile.width ≠ 0 ∧ source.videoFile.height ≠ 0)
  | .generateSlides => some ()
  | .imageSlides => createImageSlideGenerator source.slides

/-- `encoder_factory_`, which must not be null. Only on Android and on a Mac is there one for
hardware. -/
def createEncoderFactory (implementation : Implementation) : Option Unit :=
  match implementation with
  | .fake | .software => some ()
  | .hardware => none

def kSendRtxPayloadType : Int := 98
def kRtxRedPayloadType : Int := 99
def kRedPayloadType : Int := 118
def kUlpfecPayloadType : Int := 119
def kFlexfecPayloadType : Int := 120
def kFlexfecSendSsrc : UInt32 := 0xBADBEEF

def codecTypeToPayloadType : VideoCodecType → Int
  | .generic => 126
  | .vp8 => 123
  | .vp9 => 124
  | .h264 => 122
  | _ => 0

/-- An extension by the name of its URI. -/
structure RtpExtension where
  uri : String
  id : ℕ
  deriving DecidableEq

def getVideoRtpExtensions (config : VideoStreamConfig) : List RtpExtension :=
  [⟨"kVideoContentTypeUri", 3⟩, ⟨"kVideoRotationUri", 4⟩] ++
    (if config.packetFeedback then [⟨"kTransportSequenceNumberUri", 1⟩] else []) ++
    (if config.absSendTime then [⟨"kAbsSendTimeUri", 2⟩] else [])

structure Rtx where
  payloadType : Int := -1
  ssrcs : List UInt32 := []

structure Flexfec where
  payloadType : Int := -1
  ssrc : UInt32 := 0
  protectedMediaSsrcs : List UInt32 := []

structure Ulpfec where
  redPayloadType : Int := -1
  ulpfecPayloadType : Int := -1
  redRtxPayloadType : Int := -1

/-- `VideoSendStream::Config`. -/
structure SendConfig where
  payloadName : String
  payloadType : Int
  rtpHistoryMs : Int
  ssrcs : List UInt32
  extensions : List RtpExtension
  rtx : Rtx
  flexfec : Flexfec
  ulpfec : Ulpfec

/-- `VideoReceiveStream::Config`. -/
structure ReceiveConfig where
  transportCc : Bool
  localSsrc : UInt32
  extensions : List RtpExtension
  rtpHistoryMs : Int
  protectedByFlexfec : Bool
  remoteSsrc : UInt32
  /-- The payload type and the payload name. -/
  decoder : Int × String
  rtxSsrc : UInt32
  rtxAssociatedPayloadTypes : List (Int × Int)
  redPayloadType : Int
  ulpfecPayloadType : Int
  syncGroup : String

/-- `FlexfecReceiveStream::Config`. -/
structure FlexfecReceiveConfig where
  payloadType : Int
  remoteSsrc : UInt32
  protectedMediaSsrcs : List UInt32
  localSsrc : UInt32

/-- The payload name of a codec is libwebrtc's. -/
def createVideoSendStreamConfig (payloadString : VideoCodecType → String) (config : VideoStreamConfig)
    (ssrcs rtxSsrcs : List UInt32) : SendConfig where
  payloadName := payloadString config.codec
  payloadType := codecTypeToPayloadType config.codec
  rtpHistoryMs := config.nackHistoryTimeMs
  ssrcs := ssrcs
  extensions := getVideoRtpExtensions config
  rtx := if config.useRtx then { payloadType := kSendRtxPayloadType, ssrcs := rtxSsrcs } else {}
  flexfec :=
    if config.useFlexfec then
      { payloadType := kFlexfecPayloadType, ssrc := kFlexfecSendSsrc, protectedMediaSsrcs := ssrcs }
    else {}
  ulpfec :=
    if config.useUlpfec then
      { redPayloadType := kRedPayloadType, ulpfecPayloadType := kUlpfecPayloadType,
        redRtxPayloadType := kRtxRedPayloadType }
    else {}

def createVideoReceiveStreamConfig (config : VideoStreamConfig) (decoder : Int × String)
    (localSsrc ssrc rtxSsrc : UInt32) : ReceiveConfig where
  transportCc := config.packetFeedback
  localSsrc := localSsrc
  extensions := getVideoRtpExtensions config
  rtpHistoryMs := config.nackHistoryTimeMs
  protectedByFlexfec := config.useFlexfec
  remoteSsrc := ssrc
  decoder := decoder
  rtxSsrc := if config.useRtx then rtxSsrc else 0
  rtxAssociatedPayloadTypes :=
    (if config.useRtx then [(kSendRtxPayloadType, codecTypeToPayloadType config.codec)] else []) ++
      (if config.useUlpfec then [(kRtxRedPayloadType, kRedPayloadType)] else [])
  redPayloadType := if config.useUlpfec then kRedPayloadType else -1
  ulpfecPayloadType := if config.useUlpfec then kUlpfecPayloadType else -1
  syncGroup := config.syncGroup

/-! ## The streams -/

/-- `number_of_streams`. -/
def numberOfStreams (config : VideoStreamConfig) : ℕ := if config.codec = .vp8 then config.spatial else 1

/-- The SSRCs of a send stream, and those for RTX. -/
def takeSsrcs : ℕ → CallClient → Option ((List UInt32 × List UInt32) × CallClient)
  | 0, sender => some (([], []), sender)
  | n + 1, sender => do
    let video ← sender.getNextVideoSsrc
    let rtx ← video.2.getNextRtxSsrc
    let rest ← takeSsrcs n rtx.2
    return ((video.1 :: rest.1.1, rtx.1 :: rest.1.2), rest.2)

structure SendVideoStream2 where
  ssrcs : List UInt32
  rtxSsrcs : List UInt32
  config : SendConfig

def sendVideoStream2 (payloadString : VideoCodecType → String) (sender : CallClient)
    (config : VideoStreamConfig) : Option (SendVideoStream2 × CallClient) := do
  createFrameGenerator config.source
  createEncoderFactory config.implementation
  let taken ← takeSsrcs (numberOfStreams config) sender
  return (⟨taken.1.1, taken.1.2,
    createVideoSendStreamConfig payloadString config taken.1.1 taken.1.2⟩, taken.2)

structure ReceiveVideoStream2 where
  streams : List ReceiveConfig
  flexfec : List FlexfecReceiveConfig

/-- The media types that a receive stream sets. -/
def setMediaTypes (config : VideoStreamConfig) (receive : ReceiveConfig) (receiver : CallClient) :
    CallClient :=
  let receiver := if config.useFlexfec then receiver.setVideo kFlexfecSendSsrc else receiver
  let receiver := receiver.setVideo receive.remoteSsrc
  if config.useRtx then receiver.setVideo receive.rtxSsrc else receiver

/-- The loop over the streams, `n` of them from index `i` on. -/
def receiveStreams (payloadString : VideoCodecType → String) (config : VideoStreamConfig)
    (send : SendVideoStream2) : ℕ → ℕ → CallClient → Option (ReceiveVideoStream2 × CallClient)
  | 0, _, receiver => some (⟨[], []⟩, receiver)
  | n + 1, i, receiver => do
    let ssrc ← send.ssrcs[i]?
    let rtxSsrc ← send.rtxSsrcs[i]?
    let localSsrc ← receiver.getNextVideoLocalSsrc
    let receive := createVideoReceiveStreamConfig config
      (codecTypeToPayloadType config.codec, payloadString config.codec) localSsrc.1 ssrc rtxSsrc
    let flexfec : FlexfecReceiveConfig := ⟨kFlexfecPayloadType, kFlexfecSendSsrc, send.rtxSsrcs, localSsrc.1⟩
    let rest ← receiveStreams payloadString config send n (i + 1) (setMediaTypes config receive localSsrc.2)
    return (⟨receive :: rest.1.streams,
      if config.useFlexfec then flexfec :: rest.1.flexfec else rest.1.flexfec⟩, rest.2)

structure VideoStreamPair2 where
  sender : ℕ
  receiver : ℕ
  config : VideoStreamConfig
  send : SendVideoStream2
  receive : ReceiveVideoStream2

/-! ## The scenario -/

/-- The clients by their numbers, and the stream pairs among them. -/
structure Scenario where
  clients : ℕ → CallClient
  pairs : List VideoStreamPair2

namespace Scenario

inductive Act where
  | createStreamPair (sender receiver : ℕ) (config : VideoStreamConfig)
  | packet (receiver : ℕ) (isRtcp : Bool) (ssrc : Option UInt32)

def initial : Scenario := ⟨fun _ => {}, []⟩

def step (payloadString : VideoCodecType → String) (s : Scenario) : Act → Option Scenario
  | .createStreamPair sender receiver config => do
    let sent ← sendVideoStream2 payloadString (s.clients sender) config
    let clients := Function.update s.clients sender sent.2
    let received ← receiveStreams payloadString config sent.1 (numberOfStreams config) 0 (clients receiver)
    return { clients := Function.update clients receiver received.2,
             pairs := s.pairs ++ [⟨sender, receiver, config, sent.1, received.1⟩] }
  | .packet receiver isRtcp ssrc => do
    let delivered ← (s.clients receiver).onPacketReceived isRtcp ssrc
    return { s with clients := Function.update s.clients receiver delivered.2 }

end Scenario

end WebrtcGccNs3.Call
