import JuanSfu.Lib.Lts
import JuanSfu.Lib.Pool
import JuanSfu.Lib.MutualLinks
import JuanSfu.Lib.Wiring
import JuanSfu.Utils.Json
import JuanSfu.Sdp.FingerprintText
import JuanSfu.Sdp.SessionDescription
import JuanSfu.Signaling.PortMgr
import JuanSfu.Client.ZalRtcPeer
import JuanSfu.Udp.DtlsStream
import JuanSfu.Safety.BindingResponse
import JuanSfu.Safety.IceAuth
import JuanSfu.Safety.CurrentPulls
import JuanSfu.Safety.OfferMedia
import JuanSfu.Safety.RejectedOffers
import JuanSfu.Safety.AnswerRoundTrip
import JuanSfu.Safety.ForwardedLines
import JuanSfu.Safety.Membership
import JuanSfu.Safety.PortLedger
import JuanSfu.Safety.PortExhaustion
import JuanSfu.Safety.UncaughtExceptions
import JuanSfu.Safety.Forwarding
import JuanSfu.Safety.SrtpKeying
import JuanSfu.Safety.SubscriptionOrder
import JuanSfu.Safety.ResponsePassword
import JuanSfu.Safety.AnswersTold
import JuanSfu.Safety.DtlsTerminal
import JuanSfu.Safety.DtlsDelivery
import JuanSfu.Safety.AttributeLists
import JuanSfu.Safety.StunBounds
import JuanSfu.Safety.StunFingerprint
import JuanSfu.Safety.StunIntegrity
import JuanSfu.Safety.ReferenceParser
import JuanSfu.Safety.LineDispatch
import JuanSfu.Safety.PortBounds
import JuanSfu.Safety.StunFrame
import JuanSfu.Safety.DtlsFraming
import JuanSfu.Safety.ParseSafety
import JuanSfu.Safety.AdapterRefines
import JuanSfu.Safety.MediaDelivery
import JuanSfu.Safety.Unsolicited
import JuanSfu.Safety.StunChecksum
import JuanSfu.Safety.StunSignature
import JuanSfu.Safety.ConnectivityChecks
import JuanSfu.Safety.PageRuns
