import WolfCLU.Client.ConnectRuns
import WolfCLU.Crypto.AlgoName
import WolfCLU.Crypto.KeySource
import WolfCLU.Crypto.PasswordLine
import WolfCLU.Crypto.SaltMarker
import WolfCLU.Dh.DhParam
import WolfCLU.GenKey.Setup
import WolfCLU.GenKey.XmssKeyFile
import WolfCLU.Hash.HashRuns
import WolfCLU.Ocsp.HttpRound
import WolfCLU.Ocsp.IndexLines
import WolfCLU.Ocsp.Isolation
import WolfCLU.Ocsp.IssuedIndex
import WolfCLU.Ocsp.ResponderRuns
import WolfCLU.Ocsp.RevocationTime
import WolfCLU.Ocsp.StatusTable
import WolfCLU.Pkey.KeyConvert
import WolfCLU.SignVerify.AlgorithmChoice
import WolfCLU.SignVerify.DgstRoundTrip
import WolfCLU.SignVerify.KeyBounds
import WolfCLU.SignVerify.OutputFile
import WolfCLU.SignVerify.VerifyExact
import WolfCLU.SignVerify.XmssRuns
import WolfCLU.Tools.Base64
import WolfCLU.Tools.GetLine
import WolfCLU.Tools.ParseDecimal
import WolfCLU.Tools.RandOutput
import WolfCLU.Transport.HttpLength
import WolfCLU.Transport.ScgiBounds
import WolfCLU.Transport.ScgiFormat
import WolfCLU.X509.BasicConstraints
import WolfCLU.X509.CertConvert
import WolfCLU.X509.ChimeraSubject
import WolfCLU.X509.InlineAltNames
import WolfCLU.X509.NameString
import WolfCLU.X509.RegisteredId
import WolfCLU.X509.RequestSigned
import WolfCLU.X509.SerialRuns
import WolfCLU.X509.SignConfigRelease
import WolfCLU.X509.SignaturePrint
import WolfCLU.X509.SignedOutput
import WolfCLU.X509.UniqueSubject
