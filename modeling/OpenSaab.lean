import OpenSaab.Psos.Heap
import OpenSaab.Psos.Limits
import OpenSaab.Wake.Safety
import OpenSaab.Wake.Mismatch
import OpenSaab.Candi.Tickets
import OpenSaab.Candi.NativeLink
import OpenSaab.Candi.Transport
import OpenSaab.VcxNano.Completions
import OpenSaab.OpenMdi.Agreement
import OpenSaab.OpenMdi.Connection
import OpenSaab.Files.Refinement
import OpenSaab.Vlinker.Finality
import OpenSaab.Mongoose.Protocol
import OpenSaab.OpenMdi.Closing
import OpenSaab.OpenMdi.Correlation
import OpenSaab.Serial.Handoff
import OpenSaab.Android.Rndis
import OpenSaab.Display.Freshness
import OpenSaab.J2534.Provenance
import OpenSaab.J2534.RoundTrip
import OpenSaab.Mdi.Release
import OpenSaab.Obdlink.Ordering
import OpenSaab.Vlinker.Release
import OpenSaab.Candi.Transparency
import OpenSaab.Policy.Expiry
import OpenSaab.Seatbelt.Freshness
import OpenSaab.Wake.Spacing
import OpenSaab.OpenMdi.Ownership
import OpenSaab.Candi.Commands
import OpenSaab.Candi.Encoding
import OpenSaab.Candi.Firmware
import OpenSaab.Candi.Interrupts
import OpenSaab.Candi.Timer
import OpenSaab.Psos.Restarts
import OpenSaab.Bus.PlainReads
import OpenSaab.Candi.Delimiters
import OpenSaab.Candi.Emission
import OpenSaab.Capture.RoundTrip
import OpenSaab.Obdlink.Chunks
import OpenSaab.Security.Reply
import OpenSaab.Tpu.Polling
import OpenSaab.Tpu.Timeout
import OpenSaab.Vlinker.Identifiers
import OpenSaab.VcxNano.KeyAgreement
import OpenSaab.VcxNano.RecordCipher
import OpenSaab.VcxNano.InitOnly
import OpenSaab.Chipsoft.Reads
import OpenSaab.Display.Indexed
import OpenSaab.Flash.Restoration
import OpenSaab.Dtc.Limit
import OpenSaab.Config.Expansion
import OpenSaab.Config.Reload
import OpenSaab.Controls.Checkpoints
import OpenSaab.Support.Redaction
import OpenSaab.Evidence.Gaps
import OpenSaab.Lcd.Streams
import OpenSaab.Tracing.Evidence
import OpenSaab.Psos.Waits
import OpenSaab.Mdi.Handles
import OpenSaab.Menu.Requests
