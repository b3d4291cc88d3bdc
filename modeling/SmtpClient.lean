import SmtpClient.Attempt
import SmtpClient.Auth
import SmtpClient.Command
import SmtpClient.Config
import SmtpClient.Connection
import SmtpClient.Dialogue
import SmtpClient.Digest.Blocks
import SmtpClient.Digest.Hmac
import SmtpClient.Digest.Md5
import SmtpClient.Digest.Sha1
import SmtpClient.Digest.Sha256
import SmtpClient.Error
import SmtpClient.Extension
import SmtpClient.Handshake
import SmtpClient.Mechanism
import SmtpClient.Pool.Ledger
import SmtpClient.Pool.Schedule
import SmtpClient.Pool.Service
import SmtpClient.Pool.Step
import SmtpClient.Reply
import SmtpClient.Reply.Lines
import SmtpClient.Reply.Reader
import SmtpClient.Sasl.Choice
import SmtpClient.Sasl.Client
import SmtpClient.ServerInfo
import SmtpClient.Status
import SmtpClient.Stream
import SmtpClient.Text.Base64
import SmtpClient.Text.Blank
import SmtpClient.Text.Case
import SmtpClient.Text.Offset
import SmtpClient.Text.Quoted
import SmtpClient.Text.Record
import SmtpClient.Text.Unprintable
import SmtpClient.Text.Utf8
import SmtpClient.Transport
import SmtpClient.Proofs.LedgerFacts
import SmtpClient.Proofs.Turns
import SmtpClient.Proofs.Books
import SmtpClient.Proofs.Accounts
import SmtpClient.Proofs.Balance
import SmtpClient.Proofs.Queue
import SmtpClient.Proofs.Effects
import SmtpClient.Proofs.Faults
import SmtpClient.Proofs.Drain
import SmtpClient.Proofs.Close
import SmtpClient.Proofs.Replies
import SmtpClient.Proofs.Input
import SmtpClient.Proofs.Sessions
import SmtpClient.Proofs.Pairing
import SmtpClient.Proofs.Login
import SmtpClient.Proofs.Course
import SmtpClient.Proofs.Language
import SmtpClient.Proofs.Fate
import SmtpClient.Proofs.Sealing
import SmtpClient.Proofs.Choice
import SmtpClient.Proofs.Chunks
import SmtpClient.Proofs.Encoding
import SmtpClient.Proofs.Base64
import SmtpClient.Proofs.Writing
import SmtpClient.Proofs.Lines
import SmtpClient.Proofs.Grammar
import SmtpClient.Proofs.Capacity
import SmtpClient.Proofs.Likeness
import SmtpClient.Proofs.Credentials
import SmtpClient.Proofs.Secrets
import SmtpClient.Proofs.Calls
import SmtpClient.Proofs.Messages
import SmtpClient.Proofs.Rounds
import SmtpClient.Proofs.Closing
import SmtpClient.Proofs.Statuses
import SmtpClient.Proofs.Origins
import SmtpClient.Proofs.Owners
import SmtpClient.Proofs.Breakage
import SmtpClient.Proofs.Endings
import SmtpClient.Proofs.CommandLines
import SmtpClient.Proofs.LetterCase
import SmtpClient.Proofs.Keeping
import SmtpClient.Proofs.Expiry
import SmtpClient.Proofs.Termination
