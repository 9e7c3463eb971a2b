import Colloquy.Main
import Colloquy.Proofs.CommandLine.Overridden
import Colloquy.Proofs.Conversation.Anew
import Colloquy.Proofs.Conversation.Choices
import Colloquy.Proofs.Conversation.Deferred
import Colloquy.Proofs.Conversation.Drawn
import Colloquy.Proofs.Conversation.Farewell
import Colloquy.Proofs.Conversation.Leaving
import Colloquy.Proofs.Conversation.Looks
import Colloquy.Proofs.Conversation.Rearranged
import Colloquy.Proofs.Conversation.Remembered
import Colloquy.Proofs.Conversation.Unanswered
import Colloquy.Proofs.Fragment.Normal
import Colloquy.Proofs.Pattern.Groups
import Colloquy.Proofs.Pattern.Respaced
import Colloquy.Proofs.Random.Cycle
import Colloquy.Proofs.Retouch.References
import Colloquy.Proofs.Retouch.Tidy
import Colloquy.Proofs.Rules.Phrases
import Colloquy.Proofs.Rules.WholeWord
import Colloquy.Proofs.Script.Doctor
import Colloquy.Proofs.Script.Escapes
import Colloquy.Proofs.Script.Forms
import Colloquy.Proofs.Script.Lists
import Colloquy.Proofs.Script.ReadBack
import Colloquy.Proofs.Settings.Saved
import Colloquy.Proofs.Substitution.Listed
import Colloquy.Proofs.Substitution.Words
